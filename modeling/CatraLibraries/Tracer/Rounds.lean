/-
# What a round writes

A round formats the traces of a pool.  The text of the file and of the cache together is then
the complete lines of the traces formatted so far, each with the nesting that the traces before
it leave (`render`), if no call to the file system fails and each line fits into the cache
(`Writable`).  `Formatted` says which of the traces are in the file and which in the cache; a
flush moves the second ones to the first (`Formatted.flush`), and a trace adds a line
(`Formatted.performTrace`).
-/
import CatraLibraries.Tracer.CacheBounds
import CatraLibraries.Tracer.Pools

namespace CatraLibraries

namespace Tracer

open Memory

/-! ### The text of formatted traces -/

/-- The nesting at the line of a trace. -/
def leave (deep : ℤ) (t : TraceInfo) : ℤ := if t.lUpdateStackDeep < 0 then deep - 1 else deep

/-- The nesting after a trace. -/
def nest (deep : ℤ) (t : TraceInfo) : ℤ :=
  if t.lUpdateStackDeep > 0 then leave deep t + 1 else leave deep t

/-- The tracer with another nesting. -/
def withNesting (s : Tracer) (deep : ℤ) : Tracer := { s with lFunctionsStackDeep := deep }

/-- The complete lines of traces, from a nesting on. -/
def render (s : Tracer) : ℤ → List TraceInfo → List Char
  | _, [] => []
  | deep, t :: ts =>
    (s.withNesting (leave deep t)).completeTraceMessage t ++ '\n' :: s.render (nest deep t) ts

theorem render_append (s : Tracer) (deep : ℤ) (ts us : List TraceInfo) :
    s.render deep (ts ++ us) = s.render deep ts ++ s.render (ts.foldl nest deep) us := by
  induction ts generalizing deep with
  | nil => rfl
  | cons t ts ih =>
    rw [List.cons_append, render, render, ih, List.append_assoc]
    rfl

theorem completeTraceMessage_congr {s s' : Tracer} (h : s'.pName = s.pName) (deep : ℤ)
    (t : TraceInfo) : (s'.withNesting deep).completeTraceMessage t
      = (s.withNesting deep).completeTraceMessage t := by
  unfold completeTraceMessage completeTracePieces withNesting
  rw [h]

theorem render_congr {s s' : Tracer} (h : s'.pName = s.pName) (deep : ℤ) (ts : List TraceInfo) :
    s'.render deep ts = s.render deep ts := by
  induction ts generalizing deep with
  | nil => rfl
  | cons t ts ih =>
    rw [render, render, ih, completeTraceMessage_congr h]

theorem render_eq_nil {s : Tracer} {deep : ℤ} {ts : List TraceInfo} (h : s.render deep ts = []) :
    ts = [] := by
  cases ts with
  | nil => rfl
  | cons t ts => exact absurd (List.append_eq_nil_iff.mp h).2 (List.cons_ne_nil _ _)

/-! ### Calls without failures -/

/-- A flush for which the file system does what it is asked. -/
structure FlushIO.NoFailure (io : FlushIO) : Prop where
  roomLeft : io.roomLeft = true
  opened : io.opened = true
  written : io.written = true
  closed : io.closed = true
  rotated : io.rotated = true

structure PerformIO.NoFailure (io : PerformIO) : Prop where
  first : io.first.NoFailure
  last : io.last.NoFailure

structure RoundIO.NoFailure (io : RoundIO) : Prop where
  perform : ∀ i, (io.perform i).NoFailure
  expired : io.expired.NoFailure
  flush : io.flush.NoFailure

/-- The members that flushing does not touch. -/
def frame (s : Tracer) : Tracer :=
  { s with
    pTraceFileCache := []
    lCurrentCacheBusyInBytes := 0
    fileOpen := false
    ullCurrentTraceFileSize := 0
    tStartTraceFile := 0
    traceText := [] }

/-- The lines in the file and those in the cache of a tracer that traces on file. -/
structure Formatted (s : Tracer) (filed cached : List TraceInfo) : Prop where
  sized : s.Sized
  onFile : s.bTraceOnFile = true
  file : s.traceText = s.render 0 filed
  cache : s.cachedText = (s.render (filed.foldl nest 0) cached).map some

theorem frame_emptyCache (s : Tracer) : s.emptyCache.frame = s.frame := rfl

theorem frame_openFile (s : Tracer) (io : FlushIO) : (s.openFile io).frame = s.frame := by
  unfold openFile
  split
  · rfl
  · rfl

theorem frame_writeCache (s : Tracer) (roomLeft : Bool) :
    (s.writeCache roomLeft).frame = s.frame := by
  unfold writeCache
  split
  · split
    · rfl
    · rfl
  · rfl

theorem frame_closeFile (s : Tracer) (io : FlushIO) : (s.closeFile io).1.frame = s.frame := by
  unfold closeFile
  split
  · split
    · rfl
    · rfl
  · rfl

theorem pName_of_frame {s s' : Tracer} (h : s'.frame = s.frame) : s'.pName = s.pName := by
  show s'.frame.pName = s.frame.pName
  rw [h]

theorem reduceOption_map_some (text : List Char) : (text.map some).reduceOption = text := by
  induction text with
  | nil => rfl
  | cons c text ih => exact congrArg (List.cons c) ih

section

variable {s : Tracer} {filed cached : List TraceInfo}

/-- What the lines depend on is not touched. -/
theorem Formatted.of_eq {s' : Tracer} (h : s.Formatted filed cached) (hs : s'.Sized)
    (hframe : s'.frame = s.frame) (hfile : s'.traceText = s.traceText)
    (hcache : s'.cachedText = s.cachedText) : s'.Formatted filed cached where
  sized := hs
  onFile := by
    show s'.frame.bTraceOnFile = true
    rw [hframe]
    exact h.onFile
  file := by rw [hfile, render_congr (pName_of_frame hframe)]; exact h.file
  cache := by rw [hcache, render_congr (pName_of_frame hframe)]; exact h.cache

theorem Formatted.openFile (h : s.Formatted filed cached) (io : FlushIO) :
    (s.openFile io).Formatted filed cached := by
  refine h.of_eq (h.sized.openFile io).1 (frame_openFile s io) ?_ ?_
  · unfold Tracer.openFile
    split
    · rfl
    · rfl
  · unfold Tracer.openFile
    split
    · rfl
    · rfl

theorem Formatted.closeFile (h : s.Formatted filed cached) {io : FlushIO} (hio : io.NoFailure) :
    (s.closeFile io).1.Formatted filed cached ∧ (s.closeFile io).2 = .errNoError := by
  obtain ⟨hcells, hbusy, hsame⟩ := closeFile_cache s io
  refine ⟨h.of_eq (h.sized.of_eq hcells hbusy hsame.lCacheSizeOfTraceFile) (frame_closeFile s io)
    ?_ ?_, ?_⟩
  · unfold Tracer.closeFile
    split
    · split
      · rfl
      · rfl
    · rfl
  · unfold cachedText
    rw [hcells, hbusy]
  · unfold Tracer.closeFile
    rw [hio.closed, hio.rotated]
    split
    · rfl
    · rfl

/-- Writing the cache moves its lines to the file. -/
theorem Formatted.writeCache (h : s.Formatted filed cached) :
    (s.writeCache true).Formatted (filed ++ cached) [] := by
  have hframe := frame_writeCache s true
  obtain ⟨hsized, -, hempty⟩ := h.sized.writeCache true
  refine ⟨hsized, ?_, ?_, ?_⟩
  · show (s.writeCache true).frame.bTraceOnFile = true
    rw [hframe]
    exact h.onFile
  · rw [render_congr (pName_of_frame hframe), render_append, ← h.file]
    unfold Tracer.writeCache
    split
    · show s.traceText ++ s.cachedText.reduceOption = _
      rw [h.cache, reduceOption_map_some]
    · next hbusy =>
      -- an empty cache has no line
      have hcells : s.cachedText = [] := by
        unfold cachedText
        rw [not_not.mp hbusy]
        rfl
      have hlines := h.cache
      rw [hcells] at hlines
      rw [List.map_eq_nil_iff.mp hlines.symm, List.append_nil]
  · unfold cachedText
    rw [hempty]
    rfl

/-- **A flush moves the lines of the cache to the file.** -/
theorem Formatted.flush (h : s.Formatted filed cached) {io : FlushIO} (hio : io.NoFailure) :
    ∃ s', s.flushTraceFileCache io = (s', .errNoError) ∧ s'.Formatted (filed ++ cached) []
      ∧ s'.frame = s.frame := by
  have hsame : ({ s with bTraceOnFile := io.roomLeft } : Tracer) = s := by
    rw [hio.roomLeft, ← h.onFile]
  have hwritten := ((h.openFile io).writeCache).closeFile hio
  refine ⟨(((s.openFile io).writeCache true).closeFile io).1, ?_, hwritten.1, ?_⟩
  · unfold flushTraceFileCache
    rw [if_neg (by rw [h.onFile]; decide)]
    dsimp only
    rw [if_neg (fun hfail => by rw [hio.opened] at hfail; exact absurd hfail.2 (by decide)),
      if_neg (fun hfail => by rw [hio.written] at hfail; exact absurd hfail.2.2 (by decide)),
      hsame, hio.roomLeft]
    exact Prod.ext rfl hwritten.2
  · rw [frame_closeFile, frame_writeCache, frame_openFile]

/-- Room for a line: nothing has to be done, or the cache is flushed. -/
theorem Formatted.makeRoom (h : s.Formatted filed cached) (length : ℤ) {io : FlushIO}
    (hio : io.NoFailure) :
    ∃ s' filed' cached', s.makeRoom length io = (s', .errNoError)
      ∧ s'.Formatted filed' cached' ∧ filed' ++ cached' = filed ++ cached
      ∧ s'.frame = s.frame := by
  unfold Tracer.makeRoom
  split
  · obtain ⟨s', hflush, hs', hframe⟩ := h.flush hio
    exact ⟨s', _, _, hflush, hs', List.append_nil _, hframe⟩
  · exact ⟨s, filed, cached, rfl, h, rfl, rfl⟩

theorem Formatted.switchFile (h : s.Formatted filed cached) (time : ℤ) {io : FlushIO}
    (hio : io.NoFailure) :
    ∃ s' filed' cached', s.switchFile time io = (s', .errNoError)
      ∧ s'.Formatted filed' cached' ∧ filed' ++ cached' = filed ++ cached
      ∧ s'.frame = s.frame := by
  unfold Tracer.switchFile
  split
  · obtain ⟨s', hflush, hs', hframe⟩ := h.flush hio
    exact ⟨s', _, _, hflush, hs', List.append_nil _, hframe⟩
  · exact ⟨s, filed, cached, rfl, h, rfl, rfl⟩

/-! ### A trace -/

theorem leaveFunction_eq (s : Tracer) (t : TraceInfo) :
    s.leaveFunction t = s.withNesting (leave s.lFunctionsStackDeep t) := by
  unfold leaveFunction leave
  split
  · rfl
  · rfl

/-- A trace that the tracer can format with the nesting `deep`: its level is in the table of
labels, no function is left that was not entered, and its line is shorter than the cache. -/
structure Fits (s : Tracer) (deep : ℤ) (t : TraceInfo) : Prop where
  nonneg : 0 ≤ t.lTraceLevel
  level : t.lTraceLevel < maxTraceLevels
  nesting : 0 ≤ leave deep t
  short : ((s.withNesting (leave deep t)).completeTraceMessage t).length
    < s.lCacheSizeOfTraceFile * 1024

theorem render_withNesting (s : Tracer) (d deep : ℤ) (ts : List TraceInfo) :
    (s.withNesting d).render deep ts = s.render deep ts := by
  apply render_congr
  rfl

theorem render_withLine (s : Tracer) (t : TraceInfo) (length : ℤ) (cache : Cells Char)
    (deep : ℤ) (ts : List TraceInfo) :
    (s.withLine t length cache).render deep ts = s.render deep ts := by
  apply render_congr
  rfl

theorem Formatted.withNesting (h : s.Formatted filed cached) (deep : ℤ) :
    (s.withNesting deep).Formatted filed cached where
  sized := h.sized.of_eq rfl rfl rfl
  onFile := h.onFile
  file := by rw [render_withNesting]; exact h.file
  cache := by rw [render_withNesting]; exact h.cache

/-- The line behind those of the cache. -/
theorem Formatted.withLine (h : s.Formatted filed cached) {t : TraceInfo} {deep length : ℤ}
    {cache : Cells Char} (hdeep : deep = (filed ++ cached).foldl nest 0)
    (hleave : s.lFunctionsStackDeep = leave deep t) (hsized : (s.withLine t length cache).Sized)
    (htext : (s.withLine t length cache).cachedText
      = s.cachedText ++ (s.completeTraceMessage t ++ ['\n']).map some) :
    (s.withLine t length cache).Formatted filed (cached ++ [t]) where
  sized := hsized
  onFile := h.onFile
  file := by rw [render_withLine]; exact h.file
  cache := by
    have hmessage : (s.withNesting (leave deep t)).completeTraceMessage t
        = s.completeTraceMessage t := by
      rw [← hleave]; rfl
    have hline : s.render deep [t] = s.completeTraceMessage t ++ ['\n'] := by
      rw [render, hmessage]; rfl
    rw [htext, h.cache, render_withLine, render_append, ← List.foldl_append, ← hdeep, hline]
    exact List.map_append.symm

/-- **A trace adds its line.** -/
theorem Formatted.performTrace (h : s.Formatted filed cached) {t : TraceInfo} {io : PerformIO}
    (hio : io.NoFailure) (hdeep : s.lFunctionsStackDeep = (filed ++ cached).foldl nest 0)
    (hfits : s.Fits s.lFunctionsStackDeep t) :
    ∃ s' filed' cached', s.performTrace t io = .ok (s', .errNoError)
      ∧ s'.Formatted filed' cached' ∧ filed' ++ cached' = filed ++ cached ++ [t]
      ∧ s'.frame = (s.withNesting (nest s.lFunctionsStackDeep t)).frame := by
  have hleave := h.withNesting (leave s.lFunctionsStackDeep t)
  rw [← leaveFunction_eq] at hleave
  have hlength := (getCompleteTraceLength_eq_iff (s.leaveFunction t) t).mpr (by
    rw [leaveFunction_eq]; exact hfits.nesting)
  have hroom : (s.leaveFunction t).getCompleteTraceLength t + 1
      ≤ (s.leaveFunction t).lCacheSizeOfTraceFile * 1024 := by
    rw [hlength, leaveFunction_size, leaveFunction_eq]
    exact_mod_cast hfits.short
  -- room is made, the line is written, and the file may be switched
  obtain ⟨s₁, filed₁, cached₁, hmake, h₁, happend₁, hframe₁⟩ :=
    hleave.makeRoom ((s.leaveFunction t).getCompleteTraceLength t + 1) hio.first
  obtain ⟨hsized₁, hformat, hbusy⟩ := hleave.sized.makeRoom hmake hroom
  have hmessage := hformat.completeTraceMessage t
  obtain ⟨-, cache, hwrite, hsized₂, htext⟩ :=
    hsized₁.writeTrace t (by rw [hmessage]; exact hlength) hbusy
  have hdeep₁ : s₁.lFunctionsStackDeep = leave s.lFunctionsStackDeep t := by
    rw [hformat.lFunctionsStackDeep, leaveFunction_eq]; rfl
  have hnested : s.lFunctionsStackDeep = (filed₁ ++ cached₁).foldl nest 0 := by
    rw [happend₁]; exact hdeep
  have h₂ := h₁.withLine hnested hdeep₁ hsized₂ htext
  obtain ⟨s₃, filed₃, cached₃, hswitch, h₃, happend₃, hframe₃⟩ := h₂.switchFile io.time hio.last
  refine ⟨s₃, filed₃, cached₃, ?_, h₃, ?_, ?_⟩
  · unfold Tracer.performTrace
    rw [if_pos ⟨hfits.nonneg, hfits.level⟩]
    dsimp only
    rw [if_neg (Int.not_lt.mpr hroom), hmake]
    dsimp only
    rw [hwrite, ok_bind, hswitch]
    rfl
  · rw [happend₃, ← List.append_assoc, happend₁]
  · have hnest : (if t.lUpdateStackDeep > 0 then s₁.lFunctionsStackDeep + 1
        else s₁.lFunctionsStackDeep) = nest s.lFunctionsStackDeep t := by
      rw [hdeep₁]; rfl
    rw [hframe₃]
    show s₁.frame.withNesting (if t.lUpdateStackDeep > 0 then s₁.lFunctionsStackDeep + 1
      else s₁.lFunctionsStackDeep) = s.frame.withNesting (nest s.lFunctionsStackDeep t)
    rw [hnest, hframe₁, leaveFunction_eq]
    rfl

/-! ### The traces of a pool -/

/-- Traces that can be formatted one after the other. -/
def AllFit (s : Tracer) : ℤ → List TraceInfo → Prop
  | _, [] => True
  | deep, t :: ts => s.Fits deep t ∧ s.AllFit (nest deep t) ts

theorem AllFit.congr {s s' : Tracer} {deep : ℤ} {ts : List TraceInfo} (h : s.AllFit deep ts)
    (hname : s'.pName = s.pName) (hsize : s'.lCacheSizeOfTraceFile = s.lCacheSizeOfTraceFile) :
    s'.AllFit deep ts := by
  induction ts generalizing deep with
  | nil => trivial
  | cons t ts ih =>
    obtain ⟨hfits, hrest⟩ := h
    refine ⟨⟨hfits.nonneg, hfits.level, hfits.nesting, ?_⟩, ih hrest⟩
    rw [completeTraceMessage_congr hname, hsize]
    exact hfits.short

/-- **The traces of a pool add their lines**, in their order. -/
theorem Formatted.performTraces (h : s.Formatted filed cached) {ts : List TraceInfo}
    {io : ℕ → PerformIO} (hio : ∀ i, (io i).NoFailure)
    (hdeep : s.lFunctionsStackDeep = (filed ++ cached).foldl nest 0)
    (hfit : s.AllFit s.lFunctionsStackDeep ts) :
    ∃ s' filed' cached', s.performTraces ts io = .ok (s', .errNoError)
      ∧ s'.Formatted filed' cached' ∧ filed' ++ cached' = filed ++ cached ++ ts
      ∧ s'.frame = (s.withNesting (ts.foldl nest s.lFunctionsStackDeep)).frame := by
  induction ts generalizing s filed cached io with
  | nil => exact ⟨s, filed, cached, rfl, h, (List.append_nil _).symm, rfl⟩
  | cons t ts ih =>
    obtain ⟨hfits, hrest⟩ := hfit
    obtain ⟨s₁, filed₁, cached₁, hperform, h₁, happend₁, hframe₁⟩ :=
      h.performTrace (hio 0) hdeep hfits
    have hdeep₁ : s₁.lFunctionsStackDeep = nest s.lFunctionsStackDeep t := by
      show s₁.frame.lFunctionsStackDeep = _
      rw [hframe₁]
      rfl
    have hnested : s₁.lFunctionsStackDeep = (filed₁ ++ cached₁).foldl nest 0 := by
      rw [hdeep₁, happend₁, List.foldl_append, ← hdeep]
      rfl
    have hfit₁ : s₁.AllFit s₁.lFunctionsStackDeep ts := by
      rw [hdeep₁]
      apply hrest.congr
      · show s₁.frame.pName = _
        rw [hframe₁]
        rfl
      · show s₁.frame.lCacheSizeOfTraceFile = _
        rw [hframe₁]
        rfl
    obtain ⟨s₂, filed₂, cached₂, hall, h₂, happend₂, hframe₂⟩ :=
      ih h₁ (fun i => hio (i + 1)) hnested hfit₁
    refine ⟨s₂, filed₂, cached₂, ?_, h₂, ?_, ?_⟩
    · rw [Tracer.performTraces, hperform]
      exact hall
    · rw [happend₂, happend₁, List.append_assoc]
      rfl
    · rw [hframe₂, hdeep₁]
      show s₁.frame.withNesting _ = s.frame.withNesting _
      rw [hframe₁]
      rfl

/-! ### Rounds -/

/-- The pool taken and emptied. -/
def takePool (s : Tracer) : Tracer := { s with ptiTraces := [] }

/-- **A round without losses** writes the lines of the pool. -/
theorem Formatted.populate (h : s.Formatted filed cached) (flushOfTraces : Tracer → Call)
    {io : RoundIO} (hio : io.NoFailure)
    (hdeep : s.lFunctionsStackDeep = (filed ++ cached).foldl nest 0)
    (hlost : s.lLostTracesNumber = 0) (hfit : s.AllFit s.lFunctionsStackDeep s.ptiTraces) :
    ∃ s' filed' cached', populateWith flushOfTraces s io = .ok (s', .errNoError)
      ∧ s'.Formatted filed' cached' ∧ filed' ++ cached' = filed ++ cached ++ s.ptiTraces
      ∧ s'.frame = (s.takePool.withNesting (s.ptiTraces.foldl nest s.lFunctionsStackDeep)).frame := by
  have htake : s.takePool.Formatted filed cached := {
    sized := h.sized.of_eq rfl rfl rfl
    onFile := h.onFile
    file := h.file.trans (render_congr (by rfl) _ _).symm
    cache := h.cache.trans (congrArg (List.map some) (render_congr (by rfl) _ _).symm) }
  have hreport : reportLost flushOfTraces s io = .ok (s, .errNoError) := by
    unfold reportLost
    rw [if_neg (Nat.not_lt.mpr (Nat.le_of_eq hlost))]
  unfold populateWith
  rw [hreport]
  show ∃ s' filed' cached', s.exchangePools io = _ ∧ _
  unfold exchangePools
  dsimp only
  split
  · exact htake.performTraces hio.perform hdeep (hfit.congr rfl rfl)
  · next hempty =>
    have hpool : s.ptiTraces = [] := not_not.mp hempty
    obtain ⟨s', filed', cached', hswitch, hs', happend, hframe⟩ :=
      htake.switchFile io.time hio.expired
    refine ⟨s', filed', cached', ?_, hs', ?_, ?_⟩
    · exact congrArg Except.ok hswitch
    · rw [hpool, List.append_nil]
      exact happend
    · rw [hframe, hpool]
      rfl

/-- A round without losses and the flush after it: all lines are in the file. -/
theorem Formatted.flushOfTraces (h : s.Formatted filed cached) {io : ℕ → RoundIO}
    (hio : ∀ n, (io n).NoFailure) (stack : ℕ)
    (hdeep : s.lFunctionsStackDeep = (filed ++ cached).foldl nest 0)
    (hlost : s.lLostTracesNumber = 0) (hfit : s.AllFit s.lFunctionsStackDeep s.ptiTraces) :
    ∃ s', Tracer.flushOfTraces (stack + 1) io s = .ok (s', .errNoError)
      ∧ s'.Formatted (filed ++ cached ++ s.ptiTraces) []
      ∧ s'.frame = (s.takePool.withNesting (s.ptiTraces.foldl nest s.lFunctionsStackDeep)).frame := by
  obtain ⟨s₁, filed₁, cached₁, hpopulate, h₁, happend, hframe₁⟩ :=
    h.populate (Tracer.flushOfTraces stack io) (hio stack) hdeep hlost hfit
  obtain ⟨s₂, hflush, h₂, hframe₂⟩ := h₁.flush (hio stack).flush
  refine ⟨s₂, ?_, happend ▸ h₂, ?_⟩
  · rw [Tracer.flushOfTraces, hpopulate, ← hflush]
  · rw [hframe₂]
    exact hframe₁

end

end Tracer

end CatraLibraries
