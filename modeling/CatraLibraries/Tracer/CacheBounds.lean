/-
# The bounds of the trace cache

`getCompleteTraceLength` adds the nesting counter to the length of a line, and
`fillCompleteTraceMessage` writes one tab for each of its units.  A negative counter shortens
the computed length and writes no tab, so that the two lengths differ by it
(`getCompleteTraceLength_eq`).  The counter is negative after a function end whose begin was
filtered or lost.

The cache of a tracer has its place for every line that the length check lets through
(`Sized`); so with a counter that is not negative at any line, every line stands complete in
the cache and no write leaves it (`writtenWhole_run_iff`).
-/
import CatraLibraries.Tracer.Tracer
import CatraLibraries.Lib.Transition

namespace CatraLibraries

namespace Tracer

open Memory Stdio Transition

/-! ### The two lengths -/

theorem length_currentDate (d : TraceDateTime) : (currentDate d).length = 10 := by
  have hyear : (printLu 4 (d.tm_year + 1900)).length = 4 := length_printLu (by decide) d.year_lt
  have hmon : (printLu 2 (d.tm_mon + 1)).length = 2 :=
    length_printLu (by decide) (by have := d.mon_lt; omega)
  have hmday : (printLu 2 d.tm_mday).length = 2 :=
    length_printLu (by decide) (by have := d.mday_le; omega)
  simp only [currentDate, List.length_append, List.length_cons, hyear, hmon, hmday]

theorem length_currentTime (d : TraceDateTime) : (currentTime d).length = 12 := by
  have hhour : (printLu 2 d.tm_hour).length = 2 :=
    length_printLu (by decide) (by have := d.hour_lt; omega)
  have hmin : (printLu 2 d.tm_min).length = 2 :=
    length_printLu (by decide) (by have := d.min_lt; omega)
  have hsec : (printLu 2 d.tm_sec).length = 2 :=
    length_printLu (by decide) (by have := d.sec_le; omega)
  have hmilliSecs : (printLu 3 d.ulMilliSecs).length = 3 :=
    length_printLu (by decide) d.milliSecs_lt
  simp only [currentTime, List.length_append, List.length_cons, hhour, hmin, hsec, hmilliSecs]

/-- **The computed length.**  It is the length of the line while the nesting counter is not
negative, and is short by the counter otherwise. -/
theorem getCompleteTraceLength_eq (s : Tracer) (t : TraceInfo) :
    s.getCompleteTraceLength t
      = (s.completeTraceMessage t).length + min s.lFunctionsStackDeep 0 := by
  have hdate : ((currentDate t.tmDateTime).take 10).length = 10 := by
    rw [List.length_take, length_currentDate]; rfl
  have htime : ((currentTime t.tmDateTime).take 12).length = 12 := by
    rw [List.length_take, length_currentTime]; rfl
  simp only [getCompleteTraceLength, completeTraceMessage, completeTracePieces,
    List.flatten_cons, List.flatten_nil, List.length_append, List.length_cons, List.length_nil,
    List.length_replicate, hdate, htime]
  omega

theorem getCompleteTraceLength_eq_iff (s : Tracer) (t : TraceInfo) :
    s.getCompleteTraceLength t = (s.completeTraceMessage t).length
      ↔ 0 ≤ s.lFunctionsStackDeep := by
  rw [getCompleteTraceLength_eq]
  omega

/-! ### The cache keeps its size -/

/-- The cache has its bytes, and the text in it leaves the last one free. -/
structure Sized (s : Tracer) : Prop where
  cache : s.pTraceFileCache.length = s.lCacheSizeOfTraceFile * 1024 + 1
  nonneg : 0 ≤ s.lCurrentCacheBusyInBytes
  busy : s.lCurrentCacheBusyInBytes ≤ s.lCacheSizeOfTraceFile * 1024

theorem init_sized (c : TracerConfiguration) (now : ℤ) : (init c now).Sized where
  cache := by simp [init]
  nonneg := Int.le_refl 0
  busy := by simp only [init]; omega

/-- What a flush leaves alone. -/
structure SameFormat (s s' : Tracer) : Prop where
  pName : s'.pName = s.pName
  lCacheSizeOfTraceFile : s'.lCacheSizeOfTraceFile = s.lCacheSizeOfTraceFile
  lFunctionsStackDeep : s'.lFunctionsStackDeep = s.lFunctionsStackDeep

theorem SameFormat.refl (s : Tracer) : SameFormat s s := ⟨rfl, rfl, rfl⟩

/-- The same cache, apart from the file. -/
theorem Sized.of_eq {s s' : Tracer} (h : s.Sized)
    (hcache : s'.pTraceFileCache = s.pTraceFileCache)
    (hbusy : s'.lCurrentCacheBusyInBytes = s.lCurrentCacheBusyInBytes)
    (hsize : s'.lCacheSizeOfTraceFile = s.lCacheSizeOfTraceFile) : s'.Sized where
  cache := by rw [hcache, hsize]; exact h.cache
  nonneg := by rw [hbusy]; exact h.nonneg
  busy := by rw [hbusy, hsize]; exact h.busy

theorem Sized.emptyCache {s : Tracer} (h : s.Sized) : s.emptyCache.Sized where
  cache := by simp only [Tracer.emptyCache, List.length_set]; exact h.cache
  nonneg := Int.le_refl 0
  busy := by simp only [Tracer.emptyCache]; omega

/-- Writing the cache empties it. -/
theorem Sized.writeCache {s : Tracer} (h : s.Sized) (roomLeft : Bool) :
    (s.writeCache roomLeft).Sized ∧ SameFormat s (s.writeCache roomLeft)
      ∧ (s.writeCache roomLeft).lCurrentCacheBusyInBytes = 0 := by
  unfold Tracer.writeCache
  split
  · split
    · exact ⟨h.emptyCache.of_eq rfl rfl rfl, ⟨rfl, rfl, rfl⟩, rfl⟩
    · exact ⟨h.emptyCache, ⟨rfl, rfl, rfl⟩, rfl⟩
  · next hbusy => exact ⟨h, .refl s, not_not.mp hbusy⟩

/-- Closing the file leaves the cache alone. -/
theorem closeFile_cache (s : Tracer) (io : FlushIO) :
    (s.closeFile io).1.pTraceFileCache = s.pTraceFileCache
      ∧ (s.closeFile io).1.lCurrentCacheBusyInBytes = s.lCurrentCacheBusyInBytes
      ∧ SameFormat s (s.closeFile io).1 := by
  unfold closeFile
  split
  · split
    · exact ⟨rfl, rfl, rfl, rfl, rfl⟩
    · exact ⟨rfl, rfl, rfl, rfl, rfl⟩
  · exact ⟨rfl, rfl, rfl, rfl, rfl⟩

/-- Opening a file leaves the cache alone. -/
theorem Sized.openFile {s : Tracer} (h : s.Sized) (io : FlushIO) :
    (s.openFile io).Sized ∧ SameFormat s (s.openFile io) := by
  unfold Tracer.openFile
  split
  · exact ⟨h, .refl s⟩
  · exact ⟨h.of_eq rfl rfl rfl, rfl, rfl, rfl⟩

/-- **A flush**, when it succeeds, leaves an empty cache; a failed one may leave the text in
it. -/
theorem Sized.flush {s : Tracer} (h : s.Sized) (io : FlushIO) :
    (s.flushTraceFileCache io).1.Sized ∧ SameFormat s (s.flushTraceFileCache io).1
      ∧ ((s.flushTraceFileCache io).2 = .errNoError →
        (s.flushTraceFileCache io).1.lCurrentCacheBusyInBytes = 0) := by
  unfold flushTraceFileCache
  split
  · exact ⟨h.emptyCache, ⟨rfl, rfl, rfl⟩, fun _ => rfl⟩
  · dsimp only
    have hs : ({ s with bTraceOnFile := io.roomLeft } : Tracer).Sized := h.of_eq rfl rfl rfl
    obtain ⟨hsized, hformat⟩ := hs.openFile io
    split
    · exact ⟨hs, ⟨rfl, rfl, rfl⟩, fun herr => by cases herr⟩
    · split
      · exact ⟨hsized, ⟨hformat.1, hformat.2, hformat.3⟩, fun herr => by cases herr⟩
      · obtain ⟨hwrite, hsame, hempty⟩ := hsized.writeCache io.roomLeft
        obtain ⟨hcells, hbusy, hclosed⟩ :=
          closeFile_cache ((Tracer.openFile _ io).writeCache io.roomLeft) io
        refine ⟨hwrite.of_eq hcells hbusy hclosed.lCacheSizeOfTraceFile, ?_, ?_⟩
        · exact ⟨hclosed.pName.trans (hsame.pName.trans hformat.pName),
            hclosed.lCacheSizeOfTraceFile.trans
              (hsame.lCacheSizeOfTraceFile.trans hformat.lCacheSizeOfTraceFile),
            hclosed.lFunctionsStackDeep.trans
              (hsame.lFunctionsStackDeep.trans hformat.lFunctionsStackDeep)⟩
        · intro _
          exact hbusy.trans hempty

theorem closeFile_ne_tooLong (s : Tracer) (io : FlushIO) :
    (s.closeFile io).2 ≠ .TRACER_TRACETOOLONG := by
  intro herr
  unfold closeFile at herr
  split_ifs at herr

/-- A flush fails in one way only. -/
theorem flush_ne_tooLong (s : Tracer) (io : FlushIO) :
    (s.flushTraceFileCache io).2 ≠ .TRACER_TRACETOOLONG := by
  intro herr
  unfold flushTraceFileCache at herr
  split at herr
  · cases herr
  · dsimp only at herr
    split at herr
    · cases herr
    · split at herr
      · cases herr
      · exact closeFile_ne_tooLong _ io herr

/-! ### Writing a line -/

/-- The end of a function changes the nesting counter only. -/
theorem leaveFunction_sized {s : Tracer} (h : s.Sized) (t : TraceInfo) :
    (s.leaveFunction t).Sized := by
  unfold leaveFunction
  split
  · exact h.of_eq rfl rfl rfl
  · exact h

theorem SameFormat.completeTraceMessage {s s' : Tracer} (h : SameFormat s s') (t : TraceInfo) :
    s'.completeTraceMessage t = s.completeTraceMessage t := by
  unfold Tracer.completeTraceMessage completeTracePieces
  rw [h.pName, h.lFunctionsStackDeep]

/-- Room for a line, if making it succeeded. -/
theorem Sized.makeRoom {s s' : Tracer} {length : ℤ} {io : FlushIO} (h : s.Sized)
    (hroom : s.makeRoom length io = (s', .errNoError))
    (hlength : length ≤ s.lCacheSizeOfTraceFile * 1024) :
    s'.Sized ∧ SameFormat s s'
      ∧ s'.lCurrentCacheBusyInBytes + length ≤ s'.lCacheSizeOfTraceFile * 1024 := by
  unfold Tracer.makeRoom at hroom
  split at hroom
  · obtain ⟨hsized, hformat, hempty⟩ := h.flush io
    rw [hroom] at hsized hformat hempty
    refine ⟨hsized, hformat, ?_⟩
    have hbusy : s'.lCurrentCacheBusyInBytes = 0 := hempty rfl
    rw [hbusy, hformat.lCacheSizeOfTraceFile, Int.zero_add]
    exact hlength
  · next hfits =>
    obtain ⟨rfl, -⟩ := Prod.mk.inj hroom
    exact ⟨h, .refl s, by omega⟩

theorem makeRoom_sized {s s' : Tracer} {length : ℤ} {io : FlushIO} {err : TracerError}
    (h : s.Sized) (hroom : s.makeRoom length io = (s', err)) : s'.Sized := by
  unfold Tracer.makeRoom at hroom
  split at hroom
  · have hflush := (h.flush io).1
    rwa [hroom] at hflush
  · obtain ⟨rfl, -⟩ := Prod.mk.inj hroom
    exact h

theorem makeRoom_ne_tooLong (s : Tracer) (length : ℤ) (io : FlushIO) :
    (s.makeRoom length io).2 ≠ .TRACER_TRACETOOLONG := by
  unfold Tracer.makeRoom
  split
  · exact flush_ne_tooLong s io
  · intro herr; cases herr

/-- The cache cut at the text it holds and at the place of the next line. -/
theorem Sized.split {s : Tracer} (h : s.Sized) {n : ℕ}
    (hroom : s.lCurrentCacheBusyInBytes + (n + 1) ≤ s.lCacheSizeOfTraceFile * 1024) :
    ∃ (old post : Cells Char) (c d : Option Char), old.length = n
      ∧ s.pTraceFileCache = s.cachedText ++ old ++ c :: d :: post
      ∧ s.lCurrentCacheBusyInBytes = s.cachedText.length := by
  have hcache := h.cache
  obtain ⟨busy, hbusy⟩ := Int.eq_ofNat_of_zero_le h.nonneg
  have hle : busy + (n + 1) ≤ s.lCacheSizeOfTraceFile * 1024 := by
    rw [hbusy] at hroom; exact_mod_cast hroom
  have htext : s.cachedText = s.pTraceFileCache.take busy := by
    rw [cachedText, hbusy]; rfl
  have hlen : s.cachedText.length = busy := by
    rw [htext, List.length_take]; omega
  -- behind the text there are the cells of the line and two more
  have hrest : 2 ≤ (s.pTraceFileCache.drop (busy + n)).length := by
    rw [List.length_drop]; omega
  obtain ⟨c, d, post, hcells⟩ : ∃ c d post, s.pTraceFileCache.drop (busy + n) = c :: d :: post := by
    match hdrop : s.pTraceFileCache.drop (busy + n) with
    | [] => rw [hdrop] at hrest; exact absurd hrest (by decide)
    | [c] => rw [hdrop] at hrest; exact absurd hrest (Nat.not_le.mpr (Nat.lt_succ_self 1))
    | c :: d :: post => exact ⟨c, d, post, rfl⟩
  refine ⟨(s.pTraceFileCache.drop busy).take n, post, c, d, ?_, ?_, ?_⟩
  · rw [List.length_take, List.length_drop]; omega
  · rw [← hcells, htext, ← List.drop_drop, List.append_assoc, List.take_append_drop,
      List.take_append_drop]
  · rw [hlen]; exact hbusy

/-- **The line in the cache.**  Where its length is right and it has room, it stands complete
behind the text of the cache. -/
theorem Sized.writeTrace {s : Tracer} (h : s.Sized) (t : TraceInfo) {length : ℤ}
    (hlength : length = (s.completeTraceMessage t).length)
    (hroom : s.lCurrentCacheBusyInBytes + (length + 1) ≤ s.lCacheSizeOfTraceFile * 1024) :
    (∃ cache, s.fillCompleteTraceMessage s.lCurrentCacheBusyInBytes t = .ok (cache, length))
      ∧ ∃ cache, s.writeTrace t (length + 1) = .ok (s.withLine t (length + 1) cache)
        ∧ (s.withLine t (length + 1) cache).Sized
        ∧ (s.withLine t (length + 1) cache).cachedText
          = s.cachedText ++ (s.completeTraceMessage t ++ ['\n']).map some := by
  subst hlength
  obtain ⟨old, post, c, d, hold, hcache, hbusy⟩ := h.split hroom
  have hpieces := writePieces_append (s.completeTracePieces t) s.cachedText (c :: d :: post)
    hbusy hold
  have hnul := storeAt_append (s.cachedText ++ (s.completeTraceMessage t).map some) (d :: post) c
    (Char.ofNat 0) (i := s.lCurrentCacheBusyInBytes + (s.completeTraceMessage t).length)
    (by rw [hbusy, List.length_append, List.length_map, Nat.cast_add])
  have hfill : s.fillCompleteTraceMessage s.lCurrentCacheBusyInBytes t
      = .ok (s.cachedText ++ (s.completeTraceMessage t).map some
        ++ some (Char.ofNat 0) :: d :: post, ((s.completeTraceMessage t).length : ℤ)) := by
    unfold fillCompleteTraceMessage
    rw [hcache, hpieces, ok_bind]
    dsimp only
    rw [show (s.completeTracePieces t).flatten = s.completeTraceMessage t from rfl, hnul, ok_bind,
      add_sub_cancel_left]
    rfl
  refine ⟨⟨_, hfill⟩, ?_⟩
  -- the newline replaces the NUL, and a NUL follows it
  have hplace : s.lCurrentCacheBusyInBytes + (((s.completeTraceMessage t).length : ℤ) + 1) - 1
      = (s.cachedText ++ (s.completeTraceMessage t).map some).length := by
    rw [hbusy, List.length_append, List.length_map, Nat.cast_add]; omega
  have hnewline := storeAt_append (s.cachedText ++ (s.completeTraceMessage t).map some)
    (d :: post) (some (Char.ofNat 0)) '\n' hplace
  have hend : s.lCurrentCacheBusyInBytes + (((s.completeTraceMessage t).length : ℤ) + 1)
      = (s.cachedText ++ (s.completeTraceMessage t ++ ['\n']).map some).length := by
    rw [hbusy, List.length_append, List.length_map, List.length_append, Nat.cast_add,
      Nat.cast_add]
    rfl
  have hlast := storeAt_append (s.cachedText ++ (s.completeTraceMessage t ++ ['\n']).map some)
    post d (Char.ofNat 0) hend
  have hline : s.cachedText ++ (s.completeTraceMessage t).map some ++ some '\n' :: d :: post
      = s.cachedText ++ (s.completeTraceMessage t ++ ['\n']).map some ++ d :: post := by
    rw [List.map_append]
    simp only [List.map_cons, List.map_nil, List.append_assoc, List.cons_append, List.nil_append]
  have hcells : (s.cachedText ++ (s.completeTraceMessage t ++ ['\n']).map some
      ++ some (Char.ofNat 0) :: post).length = s.pTraceFileCache.length := by
    rw [hcache]
    simp only [List.length_append, List.length_map, List.length_cons, List.length_nil, hold]
    omega
  refine ⟨s.cachedText ++ (s.completeTraceMessage t ++ ['\n']).map some
    ++ some (Char.ofNat 0) :: post, ?_, ?_, ?_⟩
  · unfold Tracer.writeTrace
    rw [hfill, ok_bind]
    dsimp only
    rw [hnewline, ok_bind, hline, hlast, ok_bind]
    rfl
  · exact {
      cache := hcells.trans h.cache
      nonneg := by
        show 0 ≤ s.lCurrentCacheBusyInBytes + (((s.completeTraceMessage t).length : ℤ) + 1)
        rw [hend]
        exact Int.natCast_nonneg _
      busy := hroom }
  · show List.take (s.lCurrentCacheBusyInBytes
      + (((s.completeTraceMessage t).length : ℤ) + 1)).toNat _ = _
    unfold withLine
    dsimp only
    rw [hend, Int.toNat_natCast, List.take_left]

/-! ### Runs -/

/-- What reaches the cache: a trace, or an explicit flush. -/
inductive CacheAction
  | performTrace (t : TraceInfo) (io : PerformIO)
  | flushTraceFileCache (io : FlushIO)

/-- One call; one that leaves the memory of the cache ends there. -/
def cacheStep (s : Tracer) : CacheAction → Option Tracer
  | .performTrace t io =>
    match s.performTrace t io with
    | .ok (s', _) => some s'
    | .error _ => some s
  | .flushTraceFileCache io => some (s.flushTraceFileCache io).1

/-- No call is refused. -/
theorem cacheStep_total (s : Tracer) (a : CacheAction) : ∃ s', cacheStep s a = some s' := by
  cases a with
  | performTrace t io =>
    rw [cacheStep]
    cases s.performTrace t io with
    | ok result => exact ⟨result.1, rfl⟩
    | error fault => exact ⟨s, rfl⟩
  | flushTraceFileCache io => exact ⟨(s.flushTraceFileCache io).1, rfl⟩

/-- A trace of one of the labelled levels whose line is shorter than the cache. -/
def Ordinary (s : Tracer) : CacheAction → Tracer → Prop
  | .performTrace t _, _ => 0 ≤ t.lTraceLevel ∧ t.lTraceLevel ≤ 10
      ∧ ((s.leaveFunction t).completeTraceMessage t).length < s.lCacheSizeOfTraceFile * 1024
  | .flushTraceFileCache _, _ => True

/-- **What a trace should do.**  The computed length is that of the line, the call stays inside
the cache, and the line with its newline stands behind the text of the cache, unless the flush
that has to make room for it fails. -/
def WrittenWhole (s : Tracer) : CacheAction → Tracer → Prop
  | .performTrace t io, _ =>
    (s.leaveFunction t).getCompleteTraceLength t
        = ((s.leaveFunction t).completeTraceMessage t).length
      ∧ (∃ s' err, s.performTrace t io = .ok (s', err) ∧ err ≠ .TRACER_TRACETOOLONG)
      ∧ ∀ s₁, (s.leaveFunction t).makeRoom ((s.leaveFunction t).getCompleteTraceLength t + 1)
          io.first = (s₁, .errNoError) →
        (∃ cache, s₁.fillCompleteTraceMessage s₁.lCurrentCacheBusyInBytes t
          = .ok (cache, (s.leaveFunction t).getCompleteTraceLength t))
        ∧ ∃ s₂, s₁.writeTrace t ((s.leaveFunction t).getCompleteTraceLength t + 1) = .ok s₂
          ∧ s₂.cachedText = s₁.cachedText
            ++ ((s.leaveFunction t).completeTraceMessage t ++ ['\n']).map some
  | .flushTraceFileCache _, _ => True

/-- The nesting counter is not negative where the line is formatted. -/
def NestingKept (s : Tracer) : CacheAction → Tracer → Prop
  | .performTrace t _, _ => 0 ≤ (s.leaveFunction t).lFunctionsStackDeep
  | .flushTraceFileCache _, _ => True

theorem leaveFunction_size (s : Tracer) (t : TraceInfo) :
    (s.leaveFunction t).lCacheSizeOfTraceFile = s.lCacheSizeOfTraceFile := by
  unfold leaveFunction
  split
  · rfl
  · rfl

theorem switchFile_spec {s : Tracer} (h : s.Sized) (time : ℤ) (io : FlushIO) :
    (s.switchFile time io).1.Sized ∧ (s.switchFile time io).2 ≠ .TRACER_TRACETOOLONG := by
  unfold switchFile
  split
  · exact ⟨(h.flush io).1, flush_ne_tooLong s io⟩
  · exact ⟨h, fun herr => by cases herr⟩

/-- A trace with a nesting that is not negative is written, unless a flush fails. -/
theorem performTrace_spec {s s' : Tracer} {t : TraceInfo} {io : PerformIO} (h : s.Sized)
    (hord : s.Ordinary (.performTrace t io) s')
    (hdeep : 0 ≤ (s.leaveFunction t).lFunctionsStackDeep) :
    s.WrittenWhole (.performTrace t io) s'
      ∧ ∃ s' err, s.performTrace t io = .ok (s', err) ∧ s'.Sized := by
  obtain ⟨hlevel, hlevel10, hshort⟩ := hord
  have hlength := (getCompleteTraceLength_eq_iff (s.leaveFunction t) t).mpr hdeep
  have hs := leaveFunction_sized h t
  rw [← leaveFunction_size s t] at hshort
  have hfits : (s.leaveFunction t).getCompleteTraceLength t + 1
      ≤ (s.leaveFunction t).lCacheSizeOfTraceFile * 1024 := by
    rw [hlength]; exact_mod_cast hshort
  -- where room is made, the line is written
  have hline : ∀ s₁, (s.leaveFunction t).makeRoom
        ((s.leaveFunction t).getCompleteTraceLength t + 1) io.first = (s₁, .errNoError) →
      (∃ cache, s₁.fillCompleteTraceMessage s₁.lCurrentCacheBusyInBytes t
        = .ok (cache, (s.leaveFunction t).getCompleteTraceLength t))
      ∧ ∃ s₂, s₁.writeTrace t ((s.leaveFunction t).getCompleteTraceLength t + 1) = .ok s₂
        ∧ s₂.Sized ∧ s₂.cachedText = s₁.cachedText
          ++ ((s.leaveFunction t).completeTraceMessage t ++ ['\n']).map some := by
    intro s₁ hroom
    obtain ⟨hsized, hformat, hbusy⟩ := hs.makeRoom hroom hfits
    have hmessage := hformat.completeTraceMessage t
    obtain ⟨hfill, cache, hwrite, hsized', htext⟩ :=
      hsized.writeTrace t (by rw [hmessage]; exact hlength) hbusy
    rw [hmessage] at htext
    exact ⟨hfill, _, hwrite, hsized', htext⟩
  have hcall : ∃ s' err, s.performTrace t io = .ok (s', err) ∧ err ≠ .TRACER_TRACETOOLONG
      ∧ s'.Sized := by
    unfold performTrace
    rw [if_pos ⟨hlevel, Int.lt_of_le_of_lt hlevel10 (by decide)⟩]
    dsimp only
    rw [if_neg (Int.not_lt.mpr hfits)]
    rcases hroom : (s.leaveFunction t).makeRoom
      ((s.leaveFunction t).getCompleteTraceLength t + 1) io.first with ⟨s₁, err⟩
    cases err with
    | errNoError =>
      obtain ⟨-, s₂, hwrite, hsized, -⟩ := hline s₁ hroom
      obtain ⟨hswitch, herr⟩ := switchFile_spec hsized io.time io.last
      refine ⟨_, _, ?_, herr, hswitch⟩
      dsimp only
      rw [hwrite, ok_bind]
      rfl
    | TRACER_TRACETOOLONG => exact absurd (congrArg Prod.snd hroom) (makeRoom_ne_tooLong _ _ _)
    | TRACER_TRACER_FLUSHTRACEFILECACHE_FAILED =>
      exact ⟨s₁, _, rfl, by decide, makeRoom_sized hs hroom⟩
  obtain ⟨t', err, hperform, herr, hsized⟩ := hcall
  refine ⟨⟨hlength, ⟨t', err, hperform, herr⟩, ?_⟩, t', err, hperform, hsized⟩
  intro s₁ hroom
  obtain ⟨hfill, s₂, hwrite, -, htext⟩ := hline s₁ hroom
  exact ⟨hfill, s₂, hwrite, htext⟩

/-- **The trace cache over a run.**  Every trace of a run is written whole exactly when the
nesting counter is not negative at any of them. -/
theorem writtenWhole_run_iff (c : TracerConfiguration) (now : ℤ) {as : List CacheAction}
    (hord : Always cacheStep Ordinary (init c now) as) :
    Always cacheStep WrittenWhole (init c now) as
      ↔ Always cacheStep NestingKept (init c now) as := by
  refine always_iff_within ?_ ?_ (init_sized c now) hord
  · intro s a s' hsized hd hstep
    cases a with
    | performTrace t io =>
      constructor
      · intro hwhole
        exact (getCompleteTraceLength_eq_iff (s.leaveFunction t) t).mp hwhole.1
      · intro hdeep
        exact (performTrace_spec hsized hd hdeep).1
    | flushTraceFileCache io => exact Iff.rfl
  · intro s a s' hsized hd hstep hwhole
    cases a with
    | performTrace t io =>
      have hdeep := (getCompleteTraceLength_eq_iff (s.leaveFunction t) t).mp hwhole.1
      obtain ⟨t', err, hperform, hsized'⟩ := (performTrace_spec hsized hd hdeep).2
      rw [cacheStep, hperform] at hstep
      obtain rfl := Option.some.inj hstep
      exact hsized'
    | flushTraceFileCache io =>
      obtain rfl := Option.some.inj hstep
      exact (hsized.flush io).1

/-! ### A function end alone -/

instance (s : Tracer) : (a : CacheAction) → (s' : Tracer) → Decidable (s.Ordinary a s')
  | .performTrace t _, _ => inferInstanceAs (Decidable (0 ≤ t.lTraceLevel ∧ t.lTraceLevel ≤ 10
      ∧ ((s.leaveFunction t).completeTraceMessage t).length < s.lCacheSizeOfTraceFile * 1024))
  | .flushTraceFileCache _, _ => inferInstanceAs (Decidable True)

instance (s : Tracer) : (a : CacheAction) → (s' : Tracer) → Decidable (s.NestingKept a s')
  | .performTrace t _, _ =>
    inferInstanceAs (Decidable (0 ≤ (s.leaveFunction t).lFunctionsStackDeep))
  | .flushTraceFileCache _, _ => inferInstanceAs (Decidable True)

/-- A tracer with a cache of one kilobyte. -/
def smallTracer : TracerConfiguration where
  pName := "t".toList
  lCacheSizeOfTraceFile := 1
  ullMaxTraceFileSize := 1000
  lTraceFilePeriodInSecs := 3600
  bTraceOnFile := true
  bTraceOnTTY := false
  lTraceLevel := 0
  lMaxTracesNumber := 5000

/-- A trace of the function `f`. -/
def traceOfF (lUpdateStackDeep : ℤ) : TraceInfo where
  tmDateTime := ⟨100, 0, 1, 0, 0, 0, 0, by decide, by decide, by decide, by decide, by decide,
    by decide, by decide⟩
  lTraceLevel := 0
  bTraceMessage := "f".toList
  bFileName := "f.cpp".toList
  lFileLine := 1
  ulThreadId := 1
  lUpdateStackDeep := lUpdateStackDeep

/-- A file system without failures, at a time at which no file is over. -/
def quietIO : PerformIO where
  first := ⟨true, true, 0, true, 0, true, true⟩
  time := 0
  last := ⟨true, true, 0, true, 0, true, true⟩

theorem writtenWhole_run_iff_beginEnd :
    Always cacheStep WrittenWhole (init smallTracer 0)
      [.performTrace (traceOfF 1) quietIO, .performTrace (traceOfF (-1)) quietIO] := by
  refine (writtenWhole_run_iff smallTracer 0 ?_).mpr ?_
  · decide +kernel
  · decide +kernel

/-- The begin of the function was filtered: its end writes a line that is longer than its
computed length. -/
theorem not_writtenWhole_of_endAlone :
    ¬ Always cacheStep WrittenWhole (init smallTracer 0)
      [.performTrace (traceOfF (-1)) quietIO] := by
  intro h
  obtain ⟨s', hs'⟩ := cacheStep_total (init smallTracer 0)
    (.performTrace (traceOfF (-1)) quietIO)
  have hnegative := (getCompleteTraceLength_eq_iff _ _).mp (h s' hs').1.1
  exact absurd hnegative (by decide)

end Tracer

end CatraLibraries
