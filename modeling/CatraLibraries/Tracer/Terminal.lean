/-
# A trace on the terminal

With `bTraceOnTTY`, `performTrace` prints its line from the cache: the text from the place
`lCurrentCacheBusyInBytes - lCompleteTraceMessageLength` on.  That is the place of the line as
long as the cache was not flushed behind it.  The flush that makes room comes before the line
is written; but the one for a trace file whose time is over comes after it, sets
`lCurrentCacheBusyInBytes` to 0, and the place is then in front of the cache.

So a trace is printed as long as the nesting counter is not negative at its line and the time of
the trace file is not over behind it (`printsLine_run_iff`).
-/
import CatraLibraries.Tracer.Rounds
import Mathlib.Data.List.GetD

namespace CatraLibraries

namespace Tracer

open Memory Stdio Transition

/-- `lCompleteTraceMessageLength`, with the newline. -/
def lineLength (s : Tracer) (t : TraceInfo) : ℤ :=
  (s.leaveFunction t).getCompleteTraceLength t + 1

/-- `performTrace`, and what it sends to the terminal at its end. -/
def performTraceOnTTY (s : Tracer) (t : TraceInfo) (io : PerformIO) :
    Except Fault (Tracer × TracerError × List Char) := do
  let (s', err) ← s.performTrace t io
  if err = .errNoError ∧ s'.bTraceOnTTY then
    let text ← readAt (Char.ofNat 0) s'.pTraceFileCache
      (s'.lCurrentCacheBusyInBytes - s.lineLength t)
    return (s', err, text)
  else return (s', err, [])

/-- When the trace file was opened that is current behind the line: at the flush that made room,
if it had to open one. -/
def startOfFile (s : Tracer) (t : TraceInfo) (io : PerformIO) : ℤ :=
  if s.lCurrentCacheBusyInBytes + s.lineLength t ≥ s.lCacheSizeOfTraceFile * 1024
      ∧ s.bTraceOnFile = true ∧ s.fileOpen = false then io.first.openTime
  else s.tStartTraceFile

/-- The texts of a trace are those of C strings. -/
def TextsEnd (_ : Tracer) : CacheAction → Tracer → Prop
  | .performTrace t _, _ => Char.ofNat 0 ∉ t.bTraceMessage ∧ Char.ofNat 0 ∉ t.bFileName
  | .flushTraceFileCache _, _ => True

/-- The trace is performed. -/
def Performed (s : Tracer) : CacheAction → Tracer → Prop
  | .performTrace t io, _ => ∃ s', s.performTrace t io = .ok (s', .errNoError)
  | .flushTraceFileCache _, _ => True

/-- **What the terminal should show** of a trace that is performed: its line, read from inside
the cache. -/
def PrintsLine (s : Tracer) : CacheAction → Tracer → Prop
  | .performTrace t io, _ => ∀ s', s.performTrace t io = .ok (s', .errNoError) →
      s.performTraceOnTTY t io
        = .ok (s', .errNoError, (s.leaveFunction t).completeTraceMessage t ++ ['\n'])
  | .flushTraceFileCache _, _ => True

/-- The nesting counter is not negative at the line, and the time of the trace file is not over
behind it. -/
def Quiet (s : Tracer) : CacheAction → Tracer → Prop
  | .performTrace t io, _ => 0 ≤ (s.leaveFunction t).lFunctionsStackDeep
      ∧ io.time - s.startOfFile t io ≤ s.lTraceFilePeriodInSecs
  | .flushTraceFileCache _, _ => True

/-! ### The line has no NUL -/

theorem nul_notMem_label (lTraceLevel : ℤ) : Char.ofNat 0 ∉ traceLevelLabel lTraceLevel := by
  unfold traceLevelLabel
  rcases Nat.lt_or_ge lTraceLevel.toNat defaultTraceLevelLabel.length with hlt | hge
  · have hall : ∀ label ∈ defaultTraceLevelLabel, Char.ofNat 0 ∉ label := by decide
    rw [List.getD_eq_getElem _ _ hlt]
    exact hall _ (List.getElem_mem hlt)
  · rw [List.getD_eq_default _ _ hge]
    exact List.not_mem_nil

theorem nul_notMem_message {s : Tracer} {t : TraceInfo} (hname : Char.ofNat 0 ∉ s.pName)
    (hmessage : Char.ofNat 0 ∉ t.bTraceMessage) (hfile : Char.ofNat 0 ∉ t.bFileName) :
    Char.ofNat 0 ∉ s.completeTraceMessage t := by
  have hdate : Char.ofNat 0 ∉ currentDate t.tmDateTime := by
    simp [currentDate, nul_notMem_printLu]
  have htime : Char.ofNat 0 ∉ currentTime t.tmDateTime := by
    simp [currentTime, nul_notMem_printLu]
  have htabs : Char.ofNat 0 ∉ List.replicate s.lFunctionsStackDeep.toNat '\t' := by
    intro hmem
    exact absurd (List.eq_of_mem_replicate hmem) (by decide)
  have hdate10 := mt (List.mem_of_mem_take (i := 10)) hdate
  have htime12 := mt (List.mem_of_mem_take (i := 12)) htime
  simp [completeTraceMessage, completeTracePieces, hdate10, htime12, htabs, hname, hmessage,
    hfile, nul_notMem_label, nul_notMem_printLld, threadId, nul_notMem_toDigits]

/-! ### What a call leaves -/

/-- A flush may turn the tracing on file off, and leaves the rest of the frame. -/
theorem frame_flush (s : Tracer) (io : FlushIO) :
    ∃ on, (s.flushTraceFileCache io).1.frame = { s.frame with bTraceOnFile := on } := by
  unfold flushTraceFileCache
  split
  · exact ⟨s.bTraceOnFile, frame_emptyCache s⟩
  · dsimp only
    refine ⟨io.roomLeft, ?_⟩
    split
    · rfl
    · split
      · exact frame_openFile _ io
      · rw [frame_closeFile, frame_writeCache, frame_openFile]
        rfl

theorem writeCache_start (s : Tracer) (roomLeft : Bool) :
    (s.writeCache roomLeft).tStartTraceFile = s.tStartTraceFile := by
  unfold writeCache
  split
  · split
    · rfl
    · rfl
  · rfl

theorem closeFile_start (s : Tracer) (io : FlushIO) :
    (s.closeFile io).1.tStartTraceFile = s.tStartTraceFile := by
  unfold closeFile
  split
  · split
    · rfl
    · rfl
  · rfl

theorem openFile_start (s : Tracer) (io : FlushIO) :
    (s.openFile io).tStartTraceFile
      = if s.fileOpen = false then io.openTime else s.tStartTraceFile := by
  unfold openFile
  split
  · next hopen => exact (if_neg (by rw [hopen]; decide)).symm
  · next hclosed => exact (if_pos (Bool.eq_false_iff.mpr hclosed)).symm

/-- A flush that succeeds opens a file if none is open. -/
theorem flush_start {s : Tracer} {io : FlushIO}
    (h : (s.flushTraceFileCache io).2 = .errNoError) :
    (s.flushTraceFileCache io).1.tStartTraceFile
      = if s.bTraceOnFile = true ∧ s.fileOpen = false then io.openTime
        else s.tStartTraceFile := by
  unfold flushTraceFileCache at h ⊢
  split
  · next hoff => rw [if_neg (by rw [hoff]; exact fun hon => absurd hon.1 (by decide))]; rfl
  · next hon =>
    rw [if_neg hon] at h
    dsimp only at h ⊢
    split
    · next hfails => rw [if_pos hfails] at h; cases h
    · next hopened =>
      rw [if_neg hopened] at h
      split
      · next hfails => rw [if_pos hfails] at h; cases h
      · rw [closeFile_start, writeCache_start, openFile_start]
        simp only [Bool.not_eq_false] at hon
        simp only [hon, true_and]

/-- The line, its newline and its NUL are in the cache that a call leaves. -/
theorem writeTrace_eq_ok {s s' : Tracer} {t : TraceInfo} {length : ℤ}
    (h : s.writeTrace t length = .ok s') :
    ∃ (cache : Cells Char) (n : ℕ), s' = s.withLine t length cache
      ∧ cache.length = s.pTraceFileCache.length ∧ n < cache.length
      ∧ s.lCurrentCacheBusyInBytes + length = n ∧ cache[n]? = some (some (Char.ofNat 0)) := by
  unfold writeTrace at h
  obtain ⟨⟨m₀, place⟩, hfill, h⟩ := bind_eq_ok.mp h
  obtain ⟨m₁, hnewline, h⟩ := bind_eq_ok.mp h
  obtain ⟨m₂, hnul, h⟩ := bind_eq_ok.mp h
  unfold fillCompleteTraceMessage at hfill
  obtain ⟨⟨m, cursor⟩, hpieces, hfill⟩ := bind_eq_ok.mp hfill
  obtain ⟨m', hstore, hfill⟩ := bind_eq_ok.mp hfill
  obtain ⟨rfl, -⟩ := Prod.mk.inj (Except.ok.inj hfill)
  obtain ⟨i, -, -, rfl⟩ := storeAt_eq_ok hstore
  obtain ⟨j, -, -, rfl⟩ := storeAt_eq_ok hnewline
  obtain ⟨n, hplace, hlt, rfl⟩ := storeAt_eq_ok hnul
  refine ⟨_, n, (Except.ok.inj h).symm, ?_, ?_, hplace, ?_⟩
  · simp only [List.length_set]
    exact length_of_writePieces hpieces
  · rw [List.length_set]; exact hlt
  · rw [List.getElem?_set_self hlt]

/-- A trace that is performed made room, wrote its line and left the file that is current. -/
theorem performTrace_eq_ok {s s' : Tracer} {t : TraceInfo} {io : PerformIO}
    (h : s.performTrace t io = .ok (s', .errNoError)) :
    ∃ s₁ s₂, s.lineLength t ≤ (s.leaveFunction t).lCacheSizeOfTraceFile * 1024
      ∧ (s.leaveFunction t).makeRoom (s.lineLength t) io.first = (s₁, .errNoError)
      ∧ s₁.writeTrace t (s.lineLength t) = .ok s₂
      ∧ s₂.switchFile io.time io.last = (s', .errNoError) := by
  unfold performTrace at h
  split at h
  · dsimp only at h
    split at h
    · cases h
    · next hfits =>
      split at h
      · next s₁ hroom =>
        obtain ⟨s₂, hwrite, h⟩ := bind_eq_ok.mp h
        exact ⟨s₁, s₂, Int.not_lt.mp hfits, hroom, hwrite, Except.ok.inj h⟩
      · next s₁ err hfailed hroom =>
        obtain ⟨rfl, rfl⟩ := Prod.mk.inj (Except.ok.inj h)
        exact (hfailed rfl).elim
  · cases h

/-- What the call prints is what stands in the cache at the place that it computes. -/
theorem performTraceOnTTY_iff {s s' : Tracer} {t : TraceInfo} {io : PerformIO} {text : List Char}
    (h : s.performTrace t io = .ok (s', .errNoError)) (hTTY : s'.bTraceOnTTY = true) :
    s.performTraceOnTTY t io = .ok (s', .errNoError, text)
      ↔ readAt (Char.ofNat 0) s'.pTraceFileCache
          (s'.lCurrentCacheBusyInBytes - s.lineLength t) = .ok text := by
  unfold performTraceOnTTY
  rw [h, ok_bind]
  dsimp only
  rw [if_pos ⟨rfl, hTTY⟩]
  cases readAt (Char.ofNat 0) s'.pTraceFileCache
      (s'.lCurrentCacheBusyInBytes - s.lineLength t) with
  | error fault =>
    rw [error_bind]
    constructor
    · intro herr; cases herr
    · intro herr; cases herr
  | ok printed =>
    rw [ok_bind]
    constructor
    · intro heq
      exact congrArg Except.ok (congrArg (fun r => r.2.2) (Except.ok.inj heq))
    · intro heq
      obtain rfl := Except.ok.inj heq
      rfl

/-! ### The place of the line -/

theorem Sized.length_cachedText {s : Tracer} (h : s.Sized) :
    s.lCurrentCacheBusyInBytes = s.cachedText.length := by
  have hcache := h.cache
  have hbusy := h.busy
  have hnonneg := h.nonneg
  rw [cachedText, List.length_take]
  omega

/-- The line with its newline is read from the place where it was written. -/
theorem readAt_line {s s' : Tracer} {t : TraceInfo} (h : s.Sized)
    (hline : Char.ofNat 0 ∉ s.completeTraceMessage t) {length : ℤ}
    (hlength : length = (s.completeTraceMessage t).length)
    (hroom : s.lCurrentCacheBusyInBytes + (length + 1) ≤ s.lCacheSizeOfTraceFile * 1024)
    (hwrite : s.writeTrace t (length + 1) = .ok s') :
    readAt (Char.ofNat 0) s'.pTraceFileCache (s'.lCurrentCacheBusyInBytes - (length + 1))
      = .ok (s.completeTraceMessage t ++ ['\n']) := by
  obtain ⟨-, cells, hcells, hsized, htext⟩ := h.writeTrace t hlength hroom
  obtain rfl := Except.ok.inj (hwrite.symm.trans hcells)
  obtain ⟨cache, n, heq, -, hlt, hbusy, hnul⟩ := writeTrace_eq_ok hwrite
  obtain rfl : cells = cache := congrArg pTraceFileCache heq
  -- the text of the cache, and the NUL behind it
  have hplace : (s.withLine t (length + 1) cells).cachedText = cells.take n := by
    show cells.take (s.lCurrentCacheBusyInBytes + (length + 1)).toNat = _
    rw [hbusy, Int.toNat_natCast]
  have hcut : cells = s.cachedText ++ (s.completeTraceMessage t ++ ['\n']).map some
      ++ some (Char.ofNat 0) :: cells.drop (n + 1) := by
    rw [← htext, hplace]
    conv_lhs => rw [← List.take_append_drop n cells]
    rw [List.drop_eq_getElem_cons hlt]
    rw [List.getElem?_eq_getElem hlt] at hnul
    rw [Option.some.inj hnul]
  have hstart : s.lCurrentCacheBusyInBytes + (length + 1) - (length + 1) = s.cachedText.length := by
    rw [add_sub_cancel_right]
    exact h.length_cachedText
  show readAt _ cells (s.lCurrentCacheBusyInBytes + (length + 1) - (length + 1)) = _
  rw [hcut]
  refine readAt_append ?_ s.cachedText _ hstart
  intro hmem
  rcases List.mem_append.mp hmem with hmem | hmem
  · exact hline hmem
  · exact absurd (List.mem_singleton.mp hmem) (by decide)

/-- Room for the line is made in the file that is current behind it. -/
theorem makeRoom_start {s s₁ : Tracer} {t : TraceInfo} {io : PerformIO}
    (hroom : (s.leaveFunction t).makeRoom (s.lineLength t) io.first = (s₁, .errNoError)) :
    s₁.tStartTraceFile = s.startOfFile t io
      ∧ s₁.lTraceFilePeriodInSecs = s.lTraceFilePeriodInSecs := by
  rw [leaveFunction_eq] at hroom
  unfold startOfFile
  unfold makeRoom at hroom
  split at hroom
  · next hfull =>
    have hstart := flush_start (congrArg Prod.snd hroom)
    obtain ⟨on, hframe⟩ := frame_flush (s.withNesting (leave s.lFunctionsStackDeep t)) io.first
    rw [hroom] at hstart hframe
    refine ⟨hstart.trans ?_, ?_⟩
    · by_cases hopens : s.bTraceOnFile = true ∧ s.fileOpen = false
      · exact (if_pos hopens).trans (if_pos ⟨hfull, hopens⟩).symm
      · exact (if_neg hopens).trans (if_neg (fun h => hopens h.2)).symm
    · show s₁.frame.lTraceFilePeriodInSecs = _
      rw [hframe]
      rfl
  · next hfits =>
    obtain ⟨rfl, -⟩ := Prod.mk.inj hroom
    rw [if_neg (fun h => hfits h.1)]
    exact ⟨rfl, rfl⟩

/-! ### Runs -/

/-- A tracer with a terminal. -/
structure Printing (s : Tracer) : Prop where
  sized : s.Sized
  onTTY : s.bTraceOnTTY = true
  name : Char.ofNat 0 ∉ s.pName

theorem Printing.flush {s : Tracer} (h : s.Printing) (io : FlushIO) :
    (s.flushTraceFileCache io).1.Printing := by
  obtain ⟨on, hframe⟩ := frame_flush s io
  refine ⟨(h.sized.flush io).1, ?_, ?_⟩
  · show (s.flushTraceFileCache io).1.frame.bTraceOnTTY = true
    rw [hframe]
    exact h.onTTY
  · show _ ∉ (s.flushTraceFileCache io).1.frame.pName
    rw [hframe]
    exact h.name

theorem Printing.leaveFunction {s : Tracer} (h : s.Printing) (t : TraceInfo) :
    (s.leaveFunction t).Printing := by
  rw [leaveFunction_eq]
  exact ⟨h.sized.of_eq rfl rfl rfl, h.onTTY, h.name⟩

theorem Printing.makeRoom {s s' : Tracer} {length : ℤ} {io : FlushIO} {err : TracerError}
    (h : s.Printing) (hroom : s.makeRoom length io = (s', err)) : s'.Printing := by
  unfold Tracer.makeRoom at hroom
  split at hroom
  · have hflush := h.flush io
    rwa [hroom] at hflush
  · obtain ⟨rfl, -⟩ := Prod.mk.inj hroom
    exact h

theorem Printing.switchFile {s : Tracer} (h : s.Printing) (time : ℤ) (io : FlushIO) :
    (s.switchFile time io).1.Printing := by
  unfold Tracer.switchFile
  split
  · exact h.flush io
  · exact h

/-- A line that was written without leaving the cache leaves its text in the cache. -/
theorem Printing.writeTrace {s s' : Tracer} {t : TraceInfo} {length : ℤ} (h : s.Printing)
    (hwrite : s.writeTrace t length = .ok s') : s'.Printing := by
  obtain ⟨cache, n, rfl, hcells, hlt, hbusy, -⟩ := writeTrace_eq_ok hwrite
  have hsize := h.sized.cache
  refine ⟨⟨hcells.trans hsize, ?_, ?_⟩, h.onTTY, h.name⟩
  · show 0 ≤ s.lCurrentCacheBusyInBytes + length
    omega
  · show s.lCurrentCacheBusyInBytes + length ≤ s.lCacheSizeOfTraceFile * 1024
    omega

theorem Printing.performTrace {s s' : Tracer} {t : TraceInfo} {io : PerformIO}
    {err : TracerError} (h : s.Printing) (hperform : s.performTrace t io = .ok (s', err)) :
    s'.Printing := by
  have hleave := h.leaveFunction t
  unfold Tracer.performTrace at hperform
  split at hperform
  · dsimp only at hperform
    split at hperform
    · obtain ⟨rfl, -⟩ := Prod.mk.inj (Except.ok.inj hperform)
      exact hleave
    · split at hperform
      · next s₁ hroom =>
        obtain ⟨s₂, hwrite, hswitch⟩ := bind_eq_ok.mp hperform
        have hswitched := ((hleave.makeRoom hroom).writeTrace hwrite).switchFile io.time io.last
        rwa [Except.ok.inj hswitch] at hswitched
      · next s₁ err' hfailed hroom =>
        obtain ⟨rfl, -⟩ := Prod.mk.inj (Except.ok.inj hperform)
        exact hleave.makeRoom hroom
  · cases hperform

/-- Every call keeps the tracer printing. -/
theorem cacheStep_printing {s s' : Tracer} {a : CacheAction} (h : s.Printing)
    (hstep : cacheStep s a = some s') : s'.Printing := by
  cases a with
  | performTrace t io =>
    rw [cacheStep] at hstep
    split at hstep
    · next s₁ err hperform =>
      obtain rfl := Option.some.inj hstep
      exact h.performTrace hperform
    · obtain rfl := Option.some.inj hstep
      exact h
  | flushTraceFileCache io =>
    obtain rfl := Option.some.inj hstep
    exact h.flush io

theorem init_printing {c : TracerConfiguration} (now : ℤ) (hTTY : c.bTraceOnTTY = true)
    (hname : Char.ofNat 0 ∉ c.pName) : (init c now).Printing :=
  ⟨init_sized c now, hTTY, hname⟩

/-- **A quiet trace is printed.** -/
theorem Printing.printsLine {s s' : Tracer} {a : CacheAction} (h : s.Printing)
    (htexts : s.TextsEnd a s') (hquiet : s.Quiet a s') : s.PrintsLine a s' := by
  cases a with
  | flushTraceFileCache io => trivial
  | performTrace t io =>
    intro t' hperform
    obtain ⟨hdeep, htime⟩ := hquiet
    obtain ⟨s₁, s₂, hfits, hroom, hwrite, hswitch⟩ := performTrace_eq_ok hperform
    have hleave := h.leaveFunction t
    obtain ⟨hsized, hformat, hbusy⟩ := hleave.sized.makeRoom hroom hfits
    have hmessage := hformat.completeTraceMessage t
    obtain ⟨cache, n, hline, -, -, -, -⟩ := writeTrace_eq_ok hwrite
    -- the time of the file is not over, so the cache is as the line left it
    obtain ⟨hstart, hperiod⟩ := makeRoom_start hroom
    obtain rfl : s₂ = t' := by
      unfold Tracer.switchFile at hswitch
      rw [if_neg] at hswitch
      · exact (Prod.mk.inj hswitch).1
      · rw [hline]
        show ¬ io.time - s₁.tStartTraceFile > s₁.lTraceFilePeriodInSecs
        rw [hstart, hperiod]
        exact Int.not_lt.mpr htime
    refine (performTraceOnTTY_iff hperform (h.performTrace hperform).onTTY).mpr ?_
    rw [← hmessage]
    refine readAt_line hsized ?_ ?_ hbusy hwrite
    · rw [hmessage]
      exact nul_notMem_message hleave.name htexts.1 htexts.2
    · rw [hmessage]
      exact (getCompleteTraceLength_eq_iff _ t).mpr hdeep

/-- The nesting counter is not negative between the calls. -/
structure Nested (s : Tracer) : Prop extends Printing s where
  nesting : 0 ≤ s.lFunctionsStackDeep

/-- **A trace that is printed was quiet**, if the counter was not negative before it. -/
theorem Nested.quiet {s s' : Tracer} {a : CacheAction} (h : s.Nested)
    (hperformed : s.Performed a s') (hprints : s.PrintsLine a s') : s.Quiet a s' := by
  cases a with
  | flushTraceFileCache io => trivial
  | performTrace t io =>
    obtain ⟨t', hperform⟩ := hperformed
    obtain ⟨s₁, s₂, hfits, hroom, hwrite, hswitch⟩ := performTrace_eq_ok hperform
    have hprinted := (performTraceOnTTY_iff hperform
      (h.toPrinting.performTrace hperform).onTTY).mp (hprints t' hperform)
    obtain ⟨cache, n, rfl, hcells, hlt, hbusy, hnul⟩ := writeTrace_eq_ok hwrite
    obtain ⟨hsized, -, -⟩ := (h.toPrinting.leaveFunction t).sized.makeRoom hroom hfits
    obtain ⟨hstart, hperiod⟩ := makeRoom_start hroom
    -- the computed length of the line is positive
    have hlength := getCompleteTraceLength_eq (s.leaveFunction t) t
    have hlower : -1 ≤ (s.leaveFunction t).lFunctionsStackDeep := by
      have hnesting := h.nesting
      rw [leaveFunction_eq]
      show -1 ≤ leave s.lFunctionsStackDeep t
      unfold leave
      split <;> omega
    have hpos : 0 < s.lineLength t := by
      unfold lineLength getCompleteTraceLength
      omega
    unfold Tracer.switchFile at hswitch
    split at hswitch
    · -- the flush leaves an empty cache, and the place is in front of it
      have hwritten := ((h.toPrinting.leaveFunction t).makeRoom hroom).writeTrace hwrite
      have hempty := (hwritten.sized.flush io.last).2.2
      rw [hswitch] at hempty
      have hbefore : ¬ 0 ≤ t'.lCurrentCacheBusyInBytes - s.lineLength t := by
        rw [hempty rfl]
        omega
      rw [readAt, if_neg hbefore] at hprinted
      cases hprinted
    · next hover =>
      obtain rfl := (Prod.mk.inj hswitch).1
      have hplace : (s₁.withLine t (s.lineLength t) cache).lCurrentCacheBusyInBytes = n := hbusy
      have hle := length_le_of_readAt hplace hnul (by omega) hprinted
      rw [List.length_append, List.length_singleton] at hle
      refine ⟨?_, ?_⟩
      · unfold lineLength at hle
        omega
      · rw [← hstart, ← hperiod]
        exact Int.not_lt.mp hover

/-- A quiet trace that is performed keeps the counter. -/
theorem Nested.step {s s' : Tracer} {a : CacheAction} (h : s.Nested)
    (hperformed : s.Performed a s') (hquiet : s.Quiet a s') (hstep : cacheStep s a = some s') :
    s'.Nested := by
  refine ⟨cacheStep_printing h.toPrinting hstep, ?_⟩
  cases a with
  | flushTraceFileCache io =>
    obtain rfl := Option.some.inj hstep
    rw [((h.sized.flush io).2.1).lFunctionsStackDeep]
    exact h.nesting
  | performTrace t io =>
    obtain ⟨t', hperform⟩ := hperformed
    rw [cacheStep, hperform] at hstep
    obtain rfl := Option.some.inj hstep
    obtain ⟨s₁, s₂, hfits, hroom, hwrite, hswitch⟩ := performTrace_eq_ok hperform
    have hprinting := (h.toPrinting.leaveFunction t).makeRoom hroom
    obtain ⟨-, hformat, -⟩ := (h.toPrinting.leaveFunction t).sized.makeRoom hroom hfits
    have hafter : 0 ≤ s₂.lFunctionsStackDeep := by
      have hdeep := hquiet.1
      rw [← hformat.lFunctionsStackDeep] at hdeep
      obtain ⟨cache, n, rfl, -, -, -, -⟩ := writeTrace_eq_ok hwrite
      unfold withLine
      dsimp only
      split <;> omega
    unfold Tracer.switchFile at hswitch
    split at hswitch
    · have hsame := (((hprinting.writeTrace hwrite).sized.flush io.last).2.1).lFunctionsStackDeep
      rw [hswitch] at hsame
      rw [hsame]
      exact hafter
    · obtain rfl := (Prod.mk.inj hswitch).1
      exact hafter

/-- **The terminal over a run.**  A run whose performed traces are quiet prints each of them;
and where every trace is performed, all are printed exactly when all are quiet. -/
theorem printsLine_run_iff {c : TracerConfiguration} (now : ℤ) (hTTY : c.bTraceOnTTY = true)
    (hname : Char.ofNat 0 ∉ c.pName) {as : List CacheAction}
    (htexts : Always cacheStep TextsEnd (init c now) as) :
    (Always cacheStep (fun s a s' => s.Performed a s' → s.Quiet a s') (init c now) as →
        Always cacheStep PrintsLine (init c now) as)
      ∧ (Always cacheStep Performed (init c now) as →
        (Always cacheStep PrintsLine (init c now) as
          ↔ Always cacheStep Quiet (init c now) as)) := by
  have hstart := init_printing now hTTY hname
  constructor
  · intro hquiet
    refine always_of_invariant ?_ hstart (htexts.and hquiet)
    rintro s a s' h ⟨htext, hq⟩ hstep
    refine ⟨cacheStep_printing h hstep, ?_⟩
    cases a with
    | flushTraceFileCache io => trivial
    | performTrace t io =>
      intro t' hperform
      have hprints : s.PrintsLine (.performTrace t io) s' :=
        h.printsLine htext (hq ⟨t', hperform⟩)
      exact hprints t' hperform
  · intro hperformed
    have hnested : (init c now).Nested := ⟨hstart, Int.le_refl 0⟩
    refine always_iff_within ?_ ?_ hnested (htexts.and hperformed)
    · rintro s a s' h ⟨htext, hp⟩ hstep
      exact ⟨h.quiet hp, h.toPrinting.printsLine htext⟩
    · rintro s a s' h ⟨-, hp⟩ hstep hprints
      exact h.step hp (h.quiet hp hprints) hstep

/-! ### A trace behind whose line the time is over -/

/-- A tracer with a terminal. -/
def terminalTracer : TracerConfiguration := { smallTracer with bTraceOnTTY := true }

instance (s : Tracer) : (a : CacheAction) → (s' : Tracer) → Decidable (s.TextsEnd a s')
  | .performTrace t _, _ => inferInstanceAs (Decidable (Char.ofNat 0 ∉ t.bTraceMessage
      ∧ Char.ofNat 0 ∉ t.bFileName))
  | .flushTraceFileCache _, _ => inferInstanceAs (Decidable True)

instance (s : Tracer) : (a : CacheAction) → (s' : Tracer) → Decidable (s.Quiet a s')
  | .performTrace t io, _ => inferInstanceAs (Decidable
      (0 ≤ (s.leaveFunction t).lFunctionsStackDeep
        ∧ io.time - s.startOfFile t io ≤ s.lTraceFilePeriodInSecs))
  | .flushTraceFileCache _, _ => inferInstanceAs (Decidable True)

theorem printsLine_run_iff_beginEnd :
    Always cacheStep PrintsLine (init terminalTracer 0)
      [.performTrace (traceOfF 1) quietIO, .performTrace (traceOfF (-1)) quietIO] := by
  have htexts : Always cacheStep TextsEnd (init terminalTracer 0)
      [.performTrace (traceOfF 1) quietIO, .performTrace (traceOfF (-1)) quietIO] := by
    decide +kernel
  have hquiet : Always cacheStep Quiet (init terminalTracer 0)
      [.performTrace (traceOfF 1) quietIO, .performTrace (traceOfF (-1)) quietIO] := by
    decide +kernel
  refine (printsLine_run_iff (c := terminalTracer) 0 rfl (by decide) htexts).1 ?_
  refine Always.imp ?_ hquiet
  intro s a s' hq _
  exact hq

/-- The clock two hours behind the start of the file. -/
def lateIO : PerformIO := { quietIO with time := 7200 }

/-- The flush behind the line empties the cache, and the line is looked for in front of it. -/
theorem not_printsLine_of_periodOver :
    ¬ Always cacheStep PrintsLine (init terminalTracer 0)
      [.performTrace (traceOfF 0) lateIO] := by
  intro h
  obtain ⟨s', hs'⟩ := cacheStep_total (init terminalTracer 0) (.performTrace (traceOfF 0) lateIO)
  have hnested : (init terminalTracer 0).Nested :=
    ⟨init_printing 0 rfl (by decide), Int.le_refl 0⟩
  have hperformed : (init terminalTracer 0).Performed (.performTrace (traceOfF 0) lateIO) s' := by
    have hend : ((init terminalTracer 0).performTrace (traceOfF 0) lateIO).map Prod.snd
        = .ok .errNoError := by decide +kernel
    cases hcall : (init terminalTracer 0).performTrace (traceOfF 0) lateIO with
    | error fault => rw [hcall] at hend; cases hend
    | ok result =>
      rw [hcall] at hend
      exact ⟨result.1, hcall.trans (congrArg Except.ok (Prod.ext rfl (Except.ok.inj hend)))⟩
  have hquiet := hnested.quiet hperformed (h s' hs').1
  exact absurd hquiet.2 (by decide)

end Tracer

end CatraLibraries
