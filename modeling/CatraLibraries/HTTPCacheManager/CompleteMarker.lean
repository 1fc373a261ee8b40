/-
# What a download leaves

`Facts` says, for each phase of a download, what has happened in it and what is in its two files.
At the end it gives the marker and the file in terms of the outcomes of the calls, and with them
when a marker stands for a whole body.
-/
import CatraLibraries.HTTPCacheManager.CacheSaveHttpGetThread
import Mathlib.Data.List.Induction

namespace CatraLibraries

open Transition

namespace CacheSaveHttpGetThread

variable {κ : Type} {body : List UInt8} {bContentLengthInitialized : Bool}
  {data marker : κ} {before files files' : Files κ} {d d' : Download} {events : List DownloadEvent}
  {event : DownloadEvent}

/-- The bytes of the chunk that is not saved yet. -/
def Phase.pending : Phase → ℕ
  | .opening pucBuffer => pucBuffer.length
  | .writing pucBuffer => pucBuffer.length
  | _ => 0

/-- The file, and what was saved of the bytes that were read. -/
structure Content (body : List UInt8) (data : κ) (files : Files κ) (d : Download)
    (events : List DownloadEvent) : Prop where
  whole : events.any DownloadEvent.short = false → files data = some (body.take d.llBufferDataSaved)
  part : events.any DownloadEvent.short = true →
    ∃ content, files data = some content ∧ content.length < d.llBufferDataSaved
  saved : .write none ∉ events → d.llBufferDataSaved + d.phase.pending = bytesRead events
  lost : .write none ∈ events → d.llBufferDataSaved < bytesRead events

/-- The two files of a download whose file was not removed. -/
structure Left (body : List UInt8) (data marker : κ) (before files : Files κ) (d : Download)
    (events : List DownloadEvent) : Prop where
  marked : .touchOpen true ∈ events → files marker = some ((before marker).getD [])
  unmarked : .touchOpen true ∉ events → files marker = before marker
  closed : .open true ∉ events → files data = before data ∧ events.any DownloadEvent.short = false
  opened : .open true ∈ events → Content body data files d events
  read : bytesRead events ≤ body.length

/-- Nothing went wrong so far. -/
structure Fine (events : List DownloadEvent) : Prop where
  fails : events.any DownloadEvent.fails = false
  keeps : events.any DownloadEvent.keeps = false

/-- What has happened when a download is in a phase. -/
def Happened (body : List UInt8) (bContentLengthInitialized : Bool) (data : κ) (files : Files κ)
    (d : Download) (events : List DownloadEvent) : Prop :=
  match d.phase with
  | .requesting => events = [] ∧ d.ulChunkReadIndex = 0 ∧ d.llBufferDataSaved = 0 ∧
      d.iDestFileDescriptor = false
  | .reading => Fine events ∧ .touchOpen true ∉ events ∧
      (d.iDestFileDescriptor = true ↔ .open true ∈ events) ∧
      (d.ulChunkReadIndex = 0 ↔ .open true ∉ events) ∧
      (d.ulChunkReadIndex = 0 → d.llBufferDataSaved = 0) ∧ d.llBufferDataSaved = bytesRead events
  | .opening pucBuffer => events.any DownloadEvent.keeps = false ∧ .touchOpen true ∉ events ∧
      .open true ∉ events ∧ d.iDestFileDescriptor = false ∧ d.llBufferDataSaved = 0 ∧
      bytesRead events = pucBuffer.length ∧ pucBuffer = body.take pucBuffer.length ∧
      (pucBuffer ≠ [] → events.any DownloadEvent.fails = false) ∧
      (pucBuffer = [] → events.any DownloadEvent.fails = true) ∧ .write none ∉ events ∧
      d.ulChunkReadIndex ≠ 0
  | .writing pucBuffer => Fine events ∧ .touchOpen true ∉ events ∧ .open true ∈ events ∧
      d.iDestFileDescriptor = true ∧ pucBuffer ≠ [] ∧ d.ulChunkReadIndex ≠ 0 ∧
      pucBuffer = (body.drop d.llBufferDataSaved).take pucBuffer.length
  | .touching | .touched => Fine events ∧ .open true ∈ events ∧ d.iDestFileDescriptor = true ∧
      bContentLengthInitialized = true ∧ body.length ≤ d.llBufferDataSaved
  | .received | .disconnecting => Fine events ∧
      (d.iDestFileDescriptor = true ↔ .open true ∈ events)
  | .closing failed => events.any DownloadEvent.fails = failed ∧ events.any DownloadEvent.keeps = false
  | .checking => events.any DownloadEvent.fails = true ∧ events.any DownloadEvent.keeps = false
  | .removing => events.any DownloadEvent.fails = true ∧ events.any DownloadEvent.keeps = false ∧
      (files data).isSome = true
  | .finished => True

/-! ### One more event -/

@[simp] theorem bytesRead_concat (events : List DownloadEvent) (event : DownloadEvent) :
    bytesRead (events ++ [event]) = bytesRead events + event.bytes := by
  unfold bytesRead
  rw [List.map_append, List.sum_append, List.map_singleton, List.sum_singleton]

theorem any_concat (p : DownloadEvent → Bool) (events : List DownloadEvent) (event : DownloadEvent) :
    (events ++ [event]).any p = (events.any p || p event) := by
  rw [List.any_append, List.any_cons, List.any_nil, Bool.or_false]

theorem mem_concat_of_ne {e : DownloadEvent} (h : e ≠ event) : e ∈ events ++ [event] ↔ e ∈ events := by
  rw [List.mem_append, List.mem_singleton]
  exact or_iff_left h

theorem Fine.notMem (h : Fine events) {e : DownloadEvent} (he : e.fails = true) : e ∉ events := by
  intro hmem
  have hany : events.any DownloadEvent.fails = true := List.any_eq_true.mpr ⟨e, hmem, he⟩
  rw [h.fails] at hany
  cases hany

theorem Fine.concat (h : Fine events) (hfails : event.fails = false) (hkeeps : event.keeps = false) :
    Fine (events ++ [event]) := by
  constructor
  · rw [any_concat, h.fails, hfails]
    rfl
  · rw [any_concat, h.keeps, hkeeps]
    rfl

/-- An event that does not touch the two files. -/
structure DownloadEvent.Idle (event : DownloadEvent) : Prop where
  open_ : event ≠ .open true
  touchOpen : event ≠ .touchOpen true
  write : event ≠ .write none
  short : event.short = false
  bytes : event.bytes = 0

theorem Content.concat (h : Content body data files d events) (hshort : event.short = false)
    (hwrite : event ≠ .write none) (hbytes : event.bytes = 0) (hfile : files' data = files data)
    (hsaved : d'.llBufferDataSaved = d.llBufferDataSaved)
    (hpending : d'.phase.pending = d.phase.pending) :
    Content body data files' d' (events ++ [event]) := by
  constructor
  · rw [any_concat, hshort, Bool.or_false, hsaved, hfile]
    exact h.whole
  · rw [any_concat, hshort, Bool.or_false, hsaved, hfile]
    exact h.part
  · rw [mem_concat_of_ne hwrite.symm, bytesRead_concat, hbytes, hsaved, hpending]
    exact h.saved
  · rw [mem_concat_of_ne hwrite.symm, bytesRead_concat, hbytes, hsaved]
    exact h.lost

/-- **An event that does not touch the files** leaves what is in them. -/
theorem Left.concat (h : Left body data marker before files d events) (hidle : event.Idle)
    (hsaved : .open true ∈ events → d'.llBufferDataSaved = d.llBufferDataSaved ∧
      d'.phase.pending = d.phase.pending) :
    Left body data marker before files d' (events ++ [event]) := by
  constructor
  · rw [mem_concat_of_ne hidle.touchOpen.symm]
    exact h.marked
  · rw [mem_concat_of_ne hidle.touchOpen.symm]
    exact h.unmarked
  · rw [mem_concat_of_ne hidle.open_.symm, any_concat, hidle.short, Bool.or_false]
    exact h.closed
  · rw [mem_concat_of_ne hidle.open_.symm]
    intro hopen
    obtain ⟨hsame, hpending⟩ := hsaved hopen
    exact (h.opened hopen).concat hidle.short hidle.write hidle.bytes rfl hsame hpending
  · rw [bytesRead_concat, hidle.bytes]
    exact h.read

theorem closingHttpGet_saved (failed : Bool) (d : Download) :
    (d.closingHttpGet failed).llBufferDataSaved = d.llBufferDataSaved := rfl

theorem closingHttpGet_pending (failed : Bool) (d : Download) :
    (d.closingHttpGet failed).phase.pending = 0 := by
  unfold Download.closingHttpGet
  dsimp only
  split
  · rfl
  · split
    · rfl
    · rfl

theorem loop_pending (d : Download) : (d.loop body bContentLengthInitialized).phase.pending = 0 := by
  unfold Download.loop
  dsimp only
  split
  · rfl
  · rfl

/-- After an error the file is closed, if it is open, and then looked for. -/
theorem happened_closingHttpGet (hfails : events.any DownloadEvent.fails = true)
    (hkeeps : events.any DownloadEvent.keeps = false) :
    Happened body bContentLengthInitialized data files (d.closingHttpGet true) events := by
  cases hopen : d.iDestFileDescriptor with
  | true =>
    have hphase : (d.closingHttpGet true).phase = .closing true := by
      unfold Download.closingHttpGet
      rw [hopen]
      rfl
    unfold Happened
    rw [hphase]
    exact ⟨hfails, hkeeps⟩
  | false =>
    have hphase : (d.closingHttpGet true).phase = .checking := by
      unfold Download.closingHttpGet
      rw [hopen]
      rfl
    unfold Happened
    rw [hphase]
    exact ⟨hfails, hkeeps⟩

/-- What is known of a download that has ended: `left` are the files before `closingHttpGet` removed
one. -/
def Ended (body : List UInt8) (data marker : κ) (before files : Files κ) (d : Download)
    (events : List DownloadEvent) : Prop :=
  ∃ left, Left body data marker before left d events ∧ files marker = left marker ∧
    (events.any DownloadEvent.fails = true → events.any DownloadEvent.keeps = false → files data = none) ∧
    (events.any DownloadEvent.fails = false ∨ events.any DownloadEvent.keeps = true → files data = left data)

/-- What is known of a download. -/
structure Facts (body : List UInt8) (bContentLengthInitialized : Bool) (data marker : κ)
    (before files : Files κ) (d : Download) (events : List DownloadEvent) : Prop where
  running : d.phase ≠ .finished → Left body data marker before files d events ∧
    Happened body bContentLengthInitialized data files d events
  ended : d.phase = .finished → Ended body data marker before files d events

theorem facts_of_running (hphase : d.phase ≠ .finished)
    (hleft : Left body data marker before files d events)
    (hhappened : Happened body bContentLengthInitialized data files d events) :
    Facts body bContentLengthInitialized data marker before files d events :=
  ⟨fun _ => ⟨hleft, hhappened⟩, fun h => absurd h hphase⟩

theorem facts_of_ended (hphase : d.phase = .finished)
    (hended : Ended body data marker before files d events) :
    Facts body bContentLengthInitialized data marker before files d events :=
  ⟨fun h => absurd hphase h, fun _ => hended⟩

/-- A download whose file stays. -/
theorem ended_of_left (hleft : Left body data marker before files d events)
    (hstays : events.any DownloadEvent.fails = true → events.any DownloadEvent.keeps = false → files data = none) :
    Ended body data marker before files d events :=
  ⟨files, hleft, rfl, hstays, fun _ => rfl⟩

theorem closingHttpGet_ne_finished (d : Download) : (d.closingHttpGet true).phase ≠ .finished := by
  unfold Download.closingHttpGet
  dsimp only
  split
  · exact Phase.noConfusion
  · exact Phase.noConfusion

/-- **An error** that does not touch the files. -/
theorem facts_closingHttpGet (hleft : Left body data marker before files d events)
    (hkeeps : events.any DownloadEvent.keeps = false) (hidle : event.Idle) (hfails : event.fails = true)
    (hkeeps' : event.keeps = false)
    (hpending : .open true ∈ events → d.phase.pending = 0) :
    Facts body bContentLengthInitialized data marker before files (d.closingHttpGet true) (events ++ [event]) := by
  refine facts_of_running (closingHttpGet_ne_finished d) (hleft.concat hidle ?_)
    (happened_closingHttpGet ?_ ?_)
  · intro hopen
    rw [closingHttpGet_pending, hpending hopen]
    exact ⟨closingHttpGet_saved true d, rfl⟩
  · rw [any_concat, hfails, Bool.or_true]
  · rw [any_concat, hkeeps, hkeeps']
    rfl

/-- The loop over the body goes on, or the body is there. -/
theorem facts_loop
    (hleft : Left body data marker before files (d.loop body bContentLengthInitialized) events)
    (hfine : Fine events)
    (hmarker : .touchOpen true ∈ events →
      bContentLengthInitialized = true ∧ body.length ≤ d.llBufferDataSaved)
    (hopen : d.iDestFileDescriptor = true ↔ .open true ∈ events)
    (hindex : d.ulChunkReadIndex = 0 ↔ .open true ∉ events)
    (hzero : d.ulChunkReadIndex = 0 → d.llBufferDataSaved = 0)
    (hsaved : d.llBufferDataSaved = bytesRead events) :
    Facts body bContentLengthInitialized data marker before files
      (d.loop body bContentLengthInitialized) events := by
  unfold Download.loop at hleft ⊢
  split
  · next hlength =>
    rw [if_pos hlength] at hleft
    exact facts_of_running Phase.noConfusion hleft ⟨hfine, hopen⟩
  · next hlength =>
    rw [if_neg hlength] at hleft
    exact facts_of_running Phase.noConfusion hleft
      ⟨hfine, fun hmem => hlength (hmarker hmem), hopen, hindex, hzero, hsaved⟩

/-! ### The marker at the end -/

/-- A marker that is made, or was there before, stands for a body that is saved, and a download that
fails leaves the file. -/
def KeepsBody (body : List UInt8) (data marker : κ) (before : Files κ) (events : List DownloadEvent) : Prop :=
  .touchOpen true ∈ events ∨ before marker ≠ none →
    (events.any DownloadEvent.fails = false ∨ events.any DownloadEvent.keeps = true) ∧
    (.open true ∈ events → SavesBody body events) ∧
    (.open true ∉ events → before data = some body)

/-- The file has the body exactly when all of it was saved. -/
theorem Left.body_iff (h : Left body data marker before files d events) (hphase : d.phase = .finished)
    (hopen : .open true ∈ events) : files data = some body ↔ SavesBody body events := by
  have hcontent := h.opened hopen
  have hread := h.read
  have hsaved := hcontent.saved
  rw [hphase] at hsaved
  have hsaved : .write none ∉ events → d.llBufferDataSaved = bytesRead events := hsaved
  constructor
  · intro hbody
    by_cases hshort : events.any DownloadEvent.short = true
    · -- bytes were left out
      obtain ⟨content, hfile, hlength⟩ := hcontent.part hshort
      rw [hbody] at hfile
      cases hfile
      by_cases hlost : .write none ∈ events
      · have := hcontent.lost hlost
        omega
      · have := hsaved hlost
        omega
    · have hshort : events.any DownloadEvent.short = false := Bool.eq_false_iff.mpr hshort
      have hfile := hcontent.whole hshort
      rw [hbody, Option.some.injEq] at hfile
      have hlength := congrArg List.length hfile
      rw [List.length_take] at hlength
      by_cases hlost : .write none ∈ events
      · have := hcontent.lost hlost
        omega
      · have := hsaved hlost
        exact ⟨by omega, hlost, hshort⟩
  · rintro ⟨hlength, hlost, hshort⟩
    rw [hcontent.whole hshort, hsaved hlost, hlength, List.take_length]

theorem Ended.keepsBody_iff (h : Ended body data marker before files d events)
    (hphase : d.phase = .finished) :
    (files marker ≠ none → files data = some body) ↔ KeepsBody body data marker before events := by
  obtain ⟨left, hleft, hmarker, hgone, hstays⟩ := h
  have hmarked : files marker ≠ none ↔ .touchOpen true ∈ events ∨ before marker ≠ none := by
    rw [hmarker]
    by_cases htouch : .touchOpen true ∈ events
    · rw [hleft.marked htouch]
      exact iff_of_true (by simp) (Or.inl htouch)
    · rw [hleft.unmarked htouch]
      exact (or_iff_right htouch).symm
  unfold KeepsBody
  rw [hmarked]
  refine imp_congr_right fun _ => ?_
  constructor
  · intro hbody
    have hkept : events.any DownloadEvent.fails = false ∨ events.any DownloadEvent.keeps = true := by
      by_contra hboth
      rw [not_or, Bool.not_eq_false, Bool.not_eq_true] at hboth
      rw [hgone hboth.1 hboth.2] at hbody
      cases hbody
    rw [hstays hkept] at hbody
    refine ⟨hkept, fun hopen => (hleft.body_iff hphase hopen).mp hbody, fun hclosed => ?_⟩
    rw [← (hleft.closed hclosed).1]
    exact hbody
  · rintro ⟨hkept, hopened, hclosed⟩
    rw [hstays hkept]
    by_cases hopen : .open true ∈ events
    · exact (hleft.body_iff hphase hopen).mpr (hopened hopen)
    · rw [(hleft.closed hopen).1]
      exact hclosed hopen

/-! ### One step -/

theorem facts_start (before : Files κ) :
    Facts body bContentLengthInitialized data marker before before Download.start [] := by
  refine facts_of_running Phase.noConfusion ?_ ⟨rfl, rfl, rfl, rfl⟩
  constructor
  · intro h
    cases h
  · exact fun _ => rfl
  · exact fun _ => ⟨rfl, rfl⟩
  · intro h
    cases h
  · exact Nat.zero_le _

variable [DecidableEq κ] {ulChunkReadIndex llBufferDataSaved : ℕ} {iDestFileDescriptor : Bool}
  {pucBuffer : List UInt8} {failed : Bool}

theorem facts_requesting (hphase : d.phase = .requesting)
    (hleft : Left body data marker before files d events)
    (h : Happened body bContentLengthInitialized data files d events)
    (hstep : step body bContentLengthInitialized data marker (d, files) event = some (d', files')) :
    Facts body bContentLengthInitialized data marker before files' d' (events ++ [event]) := by
  unfold Happened at h
  rw [hphase] at h
  obtain ⟨rfl, hindex, hsaved, hfd⟩ := h
  unfold step at hstep
  dsimp only at hstep
  rw [hphase] at hstep
  dsimp only at hstep
  have hpending : d.phase.pending = 0 := by
    rw [hphase]
    rfl
  split at hstep
  · cases hstep
    exact facts_closingHttpGet hleft rfl ⟨by decide, by decide, by decide, rfl, rfl⟩ rfl rfl
      fun _ => hpending
  · cases hstep
    refine facts_loop (hleft.concat ⟨by decide, by decide, by decide, rfl, rfl⟩ ?_) ⟨rfl, rfl⟩
      (fun hmem => absurd hmem (by decide)) ?_ ?_ (fun _ => hsaved) hsaved
    · intro _
      rw [loop_pending, hpending]
      exact ⟨rfl, rfl⟩
    · rw [hfd]
      decide
    · rw [hindex]
      decide
  · cases hstep
    refine facts_of_running Phase.noConfusion
      (hleft.concat ⟨by decide, by decide, by decide, rfl, rfl⟩ fun hopen => ⟨rfl, ?_⟩)
      ⟨⟨rfl, rfl⟩, ?_⟩
    · rw [hpending]
      rfl
    · show d.iDestFileDescriptor = true ↔ _
      rw [hfd]
      decide
  · cases hstep

/-- A chunk is read: it is what comes next in the body. -/
theorem facts_reading (hphase : d.phase = .reading)
    (hleft : Left body data marker before files d events)
    (h : Happened body bContentLengthInitialized data files d events)
    (hstep : step body bContentLengthInitialized data marker (d, files) event = some (d', files')) :
    Facts body bContentLengthInitialized data marker before files' d' (events ++ [event]) := by
  unfold Happened at h
  rw [hphase] at h
  obtain ⟨hfine, hmarker, hopen, hindex, hzero, hsaved⟩ := h
  unfold step at hstep
  dsimp only at hstep
  rw [hphase] at hstep
  dsimp only at hstep
  have hpending : d.phase.pending = 0 := by
    rw [hphase]
    rfl
  split at hstep
  · cases hstep
    exact facts_closingHttpGet hleft hfine.keeps ⟨by decide, by decide, by decide, rfl, rfl⟩ rfl rfl
      fun _ => hpending
  · next n =>
    split at hstep
    · next hroom =>
      have hlength : ((body.drop d.llBufferDataSaved).take n).length = n := by
        rw [List.length_take, List.length_drop]
        omega
      have hkeeps : (events ++ [DownloadEvent.read n]).any DownloadEvent.keeps = false := by
        rw [any_concat, hfine.keeps]
        rfl
      have hshort : (events ++ [DownloadEvent.read n]).any DownloadEvent.short = events.any DownloadEvent.short := by
        rw [any_concat]
        exact Bool.or_false _
      have hne : ∀ e : DownloadEvent, e.bytes = 0 → e ≠ .read 0 → e ≠ .read n := by
        rintro e he hne rfl
        cases n with
        | zero => exact hne rfl
        | succ n => cases he
      -- what is left, with the chunk pending or none at all
      have hleft' : ∀ d₁ : Download, d₁.llBufferDataSaved = d.llBufferDataSaved →
          d₁.phase.pending = n → Left body data marker before files d₁ (events ++ [.read n]) := by
        intro d₁ hsame hpending'
        constructor
        · rw [mem_concat_of_ne (hne _ rfl (by decide))]
          exact hleft.marked
        · rw [mem_concat_of_ne (hne _ rfl (by decide))]
          exact hleft.unmarked
        · rw [mem_concat_of_ne (hne _ rfl (by decide))]
          rw [hshort]
          exact hleft.closed
        · rw [mem_concat_of_ne (hne _ rfl (by decide))]
          intro hmem
          have hcontent := hleft.opened hmem
          constructor
          · rw [hshort, hsame]
            exact hcontent.whole
          · rw [hshort, hsame]
            exact hcontent.part
          · intro _
            rw [bytesRead_concat, hsame, hpending', hsaved]
            rfl
          · rw [mem_concat_of_ne (hne _ rfl (by decide))]
            intro hlost
            have hbad := hcontent.lost hlost
            rw [hsaved] at hbad
            exact absurd hbad (Nat.lt_irrefl _)
        · rw [bytesRead_concat]
          show bytesRead events + n ≤ body.length
          rw [← hsaved]
          exact hroom
      have hfails : n ≠ 0 → (events ++ [DownloadEvent.read n]).any DownloadEvent.fails = false := by
        intro hn
        rw [any_concat, hfine.fails]
        cases n with
        | zero => exact absurd rfl hn
        | succ n => rfl
      have hfails' : n = 0 → (events ++ [DownloadEvent.read n]).any DownloadEvent.fails = true := by
        rintro rfl
        rw [any_concat]
        exact Bool.or_true _
      have hlost : .write none ∉ events ++ [DownloadEvent.read n] := by
        rw [mem_concat_of_ne (hne _ rfl (by decide))]
        exact hfine.notMem rfl
      have hmarker' : .touchOpen true ∉ events ++ [DownloadEvent.read n] := by
        rw [mem_concat_of_ne (hne _ rfl (by decide))]
        exact hmarker
      split at hstep
      · next hindex0 =>
        cases hstep
        have hsaved0 := hzero hindex0
        refine facts_of_running Phase.noConfusion (hleft' _ rfl hlength)
          ⟨hkeeps, hmarker', ?_, ?_, hsaved0, ?_, ?_, ?_, ?_, hlost, Nat.succ_ne_zero _⟩
        · rw [mem_concat_of_ne (hne _ rfl (by decide))]
          exact hindex.mp hindex0
        · exact Bool.eq_false_iff.mpr fun hfd => hindex.mp hindex0 (hopen.mp hfd)
        · rw [bytesRead_concat, hlength, ← hsaved, hsaved0]
          exact Nat.zero_add _
        · rw [hlength, hsaved0, List.drop_zero]
        · intro hne'
          refine hfails ?_
          rintro rfl
          exact hne' (List.take_zero)
        · intro hnil
          refine hfails' ?_
          rw [← hlength, hnil]
          rfl
      · next hindex0 =>
        cases hstep
        have hmem : .open true ∈ events := by
          by_contra hmem
          exact hindex0 (hindex.mpr hmem)
        unfold Download.writeBytes
        split
        · next hnil =>
          have hn : n = 0 := by
            rw [← hlength, hnil]
            rfl
          subst hn
          refine facts_of_running (closingHttpGet_ne_finished _) (hleft' _ rfl ?_)
            (happened_closingHttpGet (hfails' rfl) hkeeps)
          exact closingHttpGet_pending _ _
        · next hne' =>
          have hn : n ≠ 0 := by
            rintro rfl
            exact hne' List.take_zero
          refine facts_of_running Phase.noConfusion (hleft' _ rfl hlength)
            ⟨⟨hfails hn, hkeeps⟩, hmarker', ?_, hopen.mpr hmem, hne', Nat.succ_ne_zero _, ?_⟩
          · rw [mem_concat_of_ne (hne _ rfl (by decide))]
            exact hmem
          · rw [hlength]
    · cases hstep
  · cases hstep

/-- The file is opened for the first chunk. -/
theorem facts_opening (hphase : d.phase = .opening pucBuffer)
    (hleft : Left body data marker before files d events)
    (h : Happened body bContentLengthInitialized data files d events) (hne : data ≠ marker)
    (hstep : step body bContentLengthInitialized data marker (d, files) event = some (d', files')) :
    Facts body bContentLengthInitialized data marker before files' d' (events ++ [event]) := by
  unfold Happened at h
  rw [hphase] at h
  obtain ⟨hkeeps, hmarker, hclosed, hfd, hsaved, hread, htake, hfails, hfails', hlost, hindex⟩ := h
  unfold step at hstep
  dsimp only at hstep
  rw [hphase] at hstep
  dsimp only at hstep
  split at hstep
  · cases hstep
    have hkeeps' : (events ++ [DownloadEvent.open true]).any DownloadEvent.keeps = false := by
      rw [any_concat, hkeeps]
      rfl
    have hshort : (events ++ [DownloadEvent.open true]).any DownloadEvent.short = false := by
      rw [any_concat, (hleft.closed hclosed).2]
      rfl
    have hlost' : .write none ∉ events ++ [DownloadEvent.open true] := by
      rw [mem_concat_of_ne (by decide)]
      exact hlost
    -- the file is empty, and the first chunk pending
    have hleft' : ∀ d₁ : Download, d₁.llBufferDataSaved = 0 → d₁.phase.pending = pucBuffer.length →
        Left body data marker before (Function.update files data (some [])) d₁
          (events ++ [DownloadEvent.open true]) := by
      intro d₁ hsaved₁ hpending
      constructor
      · intro hmem
        rw [mem_concat_of_ne (by decide)] at hmem
        exact absurd hmem hmarker
      · intro _
        rw [Function.update_of_ne hne.symm]
        exact hleft.unmarked hmarker
      · intro hmem
        exact absurd (List.mem_append_right _ List.mem_cons_self) hmem
      · intro _
        constructor
        · intro _
          rw [Function.update_self, hsaved₁, List.take_zero]
        · intro hbad
          rw [hshort] at hbad
          cases hbad
        · intro _
          rw [bytesRead_concat, hread, hsaved₁, hpending]
          exact Nat.zero_add _
        · intro hmem
          exact absurd hmem hlost'
      · rw [bytesRead_concat]
        exact hleft.read
    unfold Download.writeBytes
    split
    · next hnil =>
      refine facts_of_running (closingHttpGet_ne_finished _) (hleft' _ hsaved ?_)
        (happened_closingHttpGet ?_ hkeeps')
      · rw [closingHttpGet_pending, hnil]
        rfl
      · rw [any_concat, hfails' hnil]
        rfl
    · next hchunk =>
      refine facts_of_running Phase.noConfusion (hleft' _ hsaved rfl)
        ⟨⟨?_, hkeeps'⟩, ?_, ?_, rfl, hchunk, hindex, ?_⟩
      · rw [any_concat, hfails hchunk]
        rfl
      · rw [mem_concat_of_ne (by decide)]
        exact hmarker
      · exact List.mem_append_right _ List.mem_cons_self
      · show pucBuffer = (body.drop d.llBufferDataSaved).take pucBuffer.length
        rw [hsaved, List.drop_zero]
        exact htake
  · cases hstep
    exact facts_closingHttpGet hleft hkeeps ⟨by decide, by decide, by decide, rfl, rfl⟩ rfl rfl
      fun hopen => absurd hopen hclosed
  · cases hstep

/-- A chunk is written behind the ones before. -/
theorem facts_writing (hphase : d.phase = .writing pucBuffer)
    (hleft : Left body data marker before files d events)
    (h : Happened body bContentLengthInitialized data files d events) (hne : data ≠ marker)
    (hstep : step body bContentLengthInitialized data marker (d, files) event = some (d', files')) :
    Facts body bContentLengthInitialized data marker before files' d' (events ++ [event]) := by
  unfold Happened at h
  rw [hphase] at h
  obtain ⟨hfine, hmarker, hopen, hfd, hchunk, hindex, htake⟩ := h
  have hcontent := hleft.opened hopen
  have hlost : .write none ∉ events := hfine.notMem rfl
  have hread := hcontent.saved hlost
  rw [hphase] at hread
  have hread : d.llBufferDataSaved + pucBuffer.length = bytesRead events := hread
  have hpos : 0 < pucBuffer.length := List.length_pos_iff.mpr hchunk
  unfold step at hstep
  dsimp only at hstep
  rw [hphase] at hstep
  dsimp only at hstep
  split at hstep
  · cases hstep
    refine facts_of_running (closingHttpGet_ne_finished _) ?_ (happened_closingHttpGet ?_ ?_)
    · -- the chunk is lost
      constructor
      · rw [mem_concat_of_ne (by decide)]
        exact hleft.marked
      · rw [mem_concat_of_ne (by decide)]
        exact hleft.unmarked
      · intro hmem
        rw [mem_concat_of_ne (by decide)] at hmem
        exact absurd hopen hmem
      · intro _
        constructor
        · rw [any_concat]
          exact fun hshort => hcontent.whole ((Bool.or_false _).symm.trans hshort)
        · rw [any_concat]
          exact fun hshort => hcontent.part ((Bool.or_false _).symm.trans hshort)
        · intro hmem
          exact absurd (List.mem_append_right _ List.mem_cons_self) hmem
        · intro _
          rw [bytesRead_concat]
          show d.llBufferDataSaved < bytesRead events + 0
          omega
      · rw [bytesRead_concat]
        exact hleft.read
    · rw [any_concat]
      exact Bool.or_true _
    · rw [any_concat, hfine.keeps]
      rfl
  · next k =>
    split at hstep
    · next hk =>
      cases hstep
      have hfine' : Fine (events ++ [DownloadEvent.write (some k)]) := by
        constructor
        · rw [any_concat, hfine.fails]
          rfl
        · rw [any_concat, hfine.keeps]
          rfl
      have hmem : ∀ e : DownloadEvent, e ≠ .write (some k) → (e ∈ events ++ [.write (some k)] ↔ e ∈ events) :=
        fun e he => mem_concat_of_ne he
      have hleft' : ∀ d₁ : Download,
          d₁.llBufferDataSaved = d.llBufferDataSaved + pucBuffer.length → d₁.phase.pending = 0 →
          Left body data marker before (Function.update files data ((files data).map
            (· ++ pucBuffer.take (pucBuffer.length - k)))) d₁ (events ++ [DownloadEvent.write (some k)]) := by
        intro d₁ hsaved₁ hpending
        have hshort : (events ++ [DownloadEvent.write (some k)]).any DownloadEvent.short =
            (events.any DownloadEvent.short || DownloadEvent.short (.write (some k))) := any_concat _ _ _
        constructor
        · rw [hmem _ (by simp)]
          exact fun h => absurd h hmarker
        · intro _
          rw [Function.update_of_ne hne.symm]
          exact hleft.unmarked hmarker
        · rw [hmem _ (by simp)]
          exact fun h => absurd hopen h
        · intro _
          constructor
          · intro hwhole
            rw [hshort, Bool.or_eq_false_iff] at hwhole
            have hk : k = 0 := by
              cases k with
              | zero => rfl
              | succ k => cases hwhole.2
            rw [Function.update_self, hcontent.whole hwhole.1, hsaved₁, hk, Nat.sub_zero,
              List.take_length, Option.map_some]
            conv_lhs => rw [htake]
            rw [List.take_add]
          · intro hpart
            rw [hshort, Bool.or_eq_true] at hpart
            rw [Function.update_self, hsaved₁]
            by_cases hbefore : events.any DownloadEvent.short = true
            · obtain ⟨content, hfile, hlength⟩ := hcontent.part hbefore
              refine ⟨_, by rw [hfile]; rfl, ?_⟩
              rw [List.length_append, List.length_take]
              omega
            · refine ⟨_, by rw [hcontent.whole (Bool.eq_false_iff.mpr hbefore)]; rfl, ?_⟩
              have hk : k ≠ 0 := by
                rintro rfl
                rcases hpart with hpart | hpart
                · exact hbefore hpart
                · cases hpart
              rw [List.length_append, List.length_take, List.length_take]
              omega
          · intro _
            rw [bytesRead_concat, hsaved₁, hpending]
            exact hread
          · rw [hmem _ (by simp)]
            exact fun h => absurd h hlost
        · rw [bytesRead_concat]
          exact hleft.read
      unfold Download.saved
      dsimp only
      split
      · next hcomplete =>
        refine facts_of_running Phase.noConfusion (hleft' _ rfl rfl)
          ⟨hfine', ?_, hfd, hcomplete.1, hcomplete.2.ge⟩
        rw [hmem _ (by simp)]
        exact hopen
      · refine facts_loop (hleft' _ rfl (loop_pending _)) hfine' ?_ ?_ ?_ ?_ ?_
        · rw [hmem _ (by simp)]
          exact fun h => absurd h hmarker
        · rw [hmem _ (by simp)]
          exact iff_of_true hfd hopen
        · rw [hmem _ (by simp)]
          exact iff_of_false hindex fun h => h hopen
        · exact fun h => absurd h hindex
        · rw [bytesRead_concat]
          exact hread
    · cases hstep
  · cases hstep

/-- The marker is made. -/
theorem facts_touching (hphase : d.phase = .touching)
    (hleft : Left body data marker before files d events)
    (h : Happened body bContentLengthInitialized data files d events) (hne : data ≠ marker)
    (hstep : step body bContentLengthInitialized data marker (d, files) event = some (d', files')) :
    Facts body bContentLengthInitialized data marker before files' d' (events ++ [event]) := by
  unfold Happened at h
  rw [hphase] at h
  obtain ⟨hfine, hopen, hfd, hpresent, hsaved⟩ := h
  unfold step at hstep
  dsimp only at hstep
  rw [hphase] at hstep
  dsimp only at hstep
  split at hstep
  · cases hstep
    have hcontent := hleft.opened hopen
    have hmem : ∀ e : DownloadEvent, e ≠ .touchOpen true → (e ∈ events ++ [.touchOpen true] ↔ e ∈ events) :=
      fun e he => mem_concat_of_ne he
    refine facts_of_running Phase.noConfusion ?_
      ⟨hfine.concat rfl rfl, (hmem _ (by decide)).mpr hopen, hfd, hpresent, hsaved⟩
    constructor
    · intro _
      rw [Function.update_self]
      by_cases hbefore : .touchOpen true ∈ events
      · rw [hleft.marked hbefore]
        rfl
      · rw [hleft.unmarked hbefore]
    · intro hnot
      exact absurd (List.mem_append_right _ List.mem_cons_self) hnot
    · rw [hmem _ (by decide)]
      exact fun hnot => absurd hopen hnot
    · intro _
      refine hcontent.concat rfl (by decide) rfl (Function.update_of_ne hne _ _) rfl ?_
      rw [hphase]
      rfl
    · rw [bytesRead_concat]
      exact hleft.read
  · cases hstep
    refine facts_closingHttpGet hleft hfine.keeps ⟨by decide, by decide, by decide, rfl, rfl⟩ rfl rfl
      fun _ => ?_
    rw [hphase]
    rfl
  · cases hstep

/-- The marker is closed, and the body is there. -/
theorem facts_touched (hphase : d.phase = .touched)
    (hleft : Left body data marker before files d events)
    (h : Happened body bContentLengthInitialized data files d events)
    (hstep : step body bContentLengthInitialized data marker (d, files) event = some (d', files')) :
    Facts body bContentLengthInitialized data marker before files' d' (events ++ [event]) := by
  unfold Happened at h
  rw [hphase] at h
  obtain ⟨hfine, hopen, hfd, hpresent, hsaved⟩ := h
  have hpending : d.phase.pending = 0 := by
    rw [hphase]
    rfl
  unfold step at hstep
  dsimp only at hstep
  rw [hphase] at hstep
  dsimp only at hstep
  split at hstep
  · cases hstep
    have hidle : DownloadEvent.Idle (.touchClose true) := ⟨by decide, by decide, by decide, rfl, rfl⟩
    have hloop : d.loop body bContentLengthInitialized = { d with phase := .received } := by
      unfold Download.loop
      rw [if_pos ⟨hpresent, hsaved⟩]
    rw [hloop]
    refine facts_of_running Phase.noConfusion (hleft.concat hidle fun _ => ⟨rfl, ?_⟩)
      ⟨hfine.concat rfl rfl, ?_⟩
    · rw [hpending]
      rfl
    · rw [mem_concat_of_ne (by decide)]
      exact iff_of_true hfd hopen
  · cases hstep
    exact facts_closingHttpGet hleft hfine.keeps ⟨by decide, by decide, by decide, rfl, rfl⟩ rfl rfl
      fun _ => hpending
  · cases hstep

theorem facts_received (hphase : d.phase = .received)
    (hleft : Left body data marker before files d events)
    (h : Happened body bContentLengthInitialized data files d events)
    (hstep : step body bContentLengthInitialized data marker (d, files) event = some (d', files')) :
    Facts body bContentLengthInitialized data marker before files' d' (events ++ [event]) := by
  unfold Happened at h
  rw [hphase] at h
  obtain ⟨hfine, hopen⟩ := h
  have hpending : d.phase.pending = 0 := by
    rw [hphase]
    rfl
  unfold step at hstep
  dsimp only at hstep
  rw [hphase] at hstep
  dsimp only at hstep
  split at hstep
  · cases hstep
    refine facts_of_running Phase.noConfusion
      (hleft.concat ⟨by decide, by decide, by decide, rfl, rfl⟩ fun _ => ⟨rfl, ?_⟩)
      ⟨hfine.concat rfl rfl, ?_⟩
    · rw [hpending]
      rfl
    · rw [mem_concat_of_ne (by decide)]
      exact hopen
  · cases hstep
    exact facts_closingHttpGet hleft hfine.keeps ⟨by decide, by decide, by decide, rfl, rfl⟩ rfl rfl
      fun _ => hpending
  · cases hstep

theorem facts_disconnecting (hphase : d.phase = .disconnecting)
    (hleft : Left body data marker before files d events)
    (h : Happened body bContentLengthInitialized data files d events)
    (hstep : step body bContentLengthInitialized data marker (d, files) event = some (d', files')) :
    Facts body bContentLengthInitialized data marker before files' d' (events ++ [event]) := by
  unfold Happened at h
  rw [hphase] at h
  obtain ⟨hfine, hopen⟩ := h
  have hpending : d.phase.pending = 0 := by
    rw [hphase]
    rfl
  unfold step at hstep
  dsimp only at hstep
  rw [hphase] at hstep
  dsimp only at hstep
  split at hstep
  · cases hstep
    have hfine' : Fine (events ++ [DownloadEvent.finish true]) := hfine.concat rfl rfl
    have hleft' : Left body data marker before files (d.closingHttpGet false)
        (events ++ [.finish true]) := by
      refine hleft.concat ⟨by decide, by decide, by decide, rfl, rfl⟩ fun _ => ⟨rfl, ?_⟩
      rw [closingHttpGet_pending, hpending]
    unfold Download.closingHttpGet at hleft' ⊢
    split
    · next hfd =>
      rw [if_pos hfd] at hleft'
      exact facts_of_running Phase.noConfusion hleft' ⟨hfine'.fails, hfine'.keeps⟩
    · next hfd =>
      rw [if_neg hfd] at hleft'
      refine facts_of_ended rfl (ended_of_left hleft' fun hfails => ?_)
      rw [hfine'.fails] at hfails
      cases hfails
  · cases hstep
    exact facts_closingHttpGet hleft hfine.keeps ⟨by decide, by decide, by decide, rfl, rfl⟩ rfl rfl
      fun _ => hpending
  · cases hstep

/-- The file is closed. -/
theorem facts_closing (hphase : d.phase = .closing failed)
    (hleft : Left body data marker before files d events)
    (h : Happened body bContentLengthInitialized data files d events)
    (hstep : step body bContentLengthInitialized data marker (d, files) event = some (d', files')) :
    Facts body bContentLengthInitialized data marker before files' d' (events ++ [event]) := by
  unfold Happened at h
  rw [hphase] at h
  obtain ⟨hfails, hkeeps⟩ := h
  have hpending : d.phase.pending = 0 := by
    rw [hphase]
    rfl
  unfold step at hstep
  dsimp only at hstep
  rw [hphase] at hstep
  dsimp only at hstep
  split at hstep
  · cases hstep
    have hfails' : (events ++ [DownloadEvent.close true]).any DownloadEvent.fails = failed := by
      rw [any_concat, hfails]
      exact Bool.or_false _
    have hkeeps' : (events ++ [DownloadEvent.close true]).any DownloadEvent.keeps = false := by
      rw [any_concat, hkeeps]
      rfl
    have hleft' : ∀ d₁ : Download, d₁.llBufferDataSaved = d.llBufferDataSaved →
        d₁.phase.pending = 0 → Left body data marker before files d₁ (events ++ [.close true]) := by
      intro d₁ hsaved hpending₁
      refine hleft.concat ⟨by decide, by decide, by decide, rfl, rfl⟩ fun _ => ⟨hsaved, ?_⟩
      rw [hpending₁, hpending]
    split
    · next hfailed =>
      refine facts_of_running Phase.noConfusion (hleft' _ rfl rfl) ⟨?_, hkeeps'⟩
      rw [hfails', hfailed]
    · next hfailed =>
      refine facts_of_ended rfl (ended_of_left (hleft' _ rfl rfl) fun hbad => ?_)
      rw [hfails'] at hbad
      exact absurd hbad hfailed
  · cases hstep
    refine facts_of_ended rfl (ended_of_left (hleft.concat
      ⟨by decide, by decide, by decide, rfl, rfl⟩ fun _ => ⟨rfl, ?_⟩) fun _ hbad => ?_)
    · rw [hpending]
      rfl
    · rw [any_concat] at hbad
      exact absurd hbad (by simp [DownloadEvent.keeps])
  · cases hstep

/-- The file is looked for. -/
theorem facts_checking (hphase : d.phase = .checking)
    (hleft : Left body data marker before files d events)
    (h : Happened body bContentLengthInitialized data files d events)
    (hstep : step body bContentLengthInitialized data marker (d, files) event = some (d', files')) :
    Facts body bContentLengthInitialized data marker before files' d' (events ++ [event]) := by
  unfold Happened at h
  rw [hphase] at h
  obtain ⟨hfails, hkeeps⟩ := h
  have hpending : d.phase.pending = 0 := by
    rw [hphase]
    rfl
  unfold step at hstep
  dsimp only at hstep
  rw [hphase] at hstep
  dsimp only at hstep
  split at hstep
  · cases hstep
    have hleft' : ∀ d₁ : Download, d₁.llBufferDataSaved = d.llBufferDataSaved →
        d₁.phase.pending = 0 →
          Left body data marker before files d₁ (events ++ [.isFileExisting true]) := by
      intro d₁ hsaved hpending₁
      refine hleft.concat ⟨by decide, by decide, by decide, rfl, rfl⟩ fun _ => ⟨hsaved, ?_⟩
      rw [hpending₁, hpending]
    split
    · next hexists =>
      refine facts_of_running Phase.noConfusion (hleft' _ rfl rfl) ⟨?_, ?_, hexists⟩
      · rw [any_concat, hfails]
        rfl
      · rw [any_concat, hkeeps]
        rfl
    · next hexists =>
      refine facts_of_ended rfl (ended_of_left (hleft' _ rfl rfl) fun _ _ => ?_)
      exact Option.not_isSome_iff_eq_none.mp hexists
  · cases hstep
    refine facts_of_ended rfl (ended_of_left (hleft.concat
      ⟨by decide, by decide, by decide, rfl, rfl⟩ fun _ => ⟨rfl, ?_⟩) fun _ hbad => ?_)
    · rw [hpending]
      rfl
    · rw [any_concat] at hbad
      exact absurd hbad (by simp [DownloadEvent.keeps])
  · cases hstep

/-- The file is removed. -/
theorem facts_removing (hphase : d.phase = .removing)
    (hleft : Left body data marker before files d events)
    (h : Happened body bContentLengthInitialized data files d events) (hne : data ≠ marker)
    (hstep : step body bContentLengthInitialized data marker (d, files) event = some (d', files')) :
    Facts body bContentLengthInitialized data marker before files' d' (events ++ [event]) := by
  unfold Happened at h
  rw [hphase] at h
  obtain ⟨hfails, hkeeps, hexists⟩ := h
  have hpending : d.phase.pending = 0 := by
    rw [hphase]
    rfl
  unfold step at hstep
  dsimp only at hstep
  rw [hphase] at hstep
  dsimp only at hstep
  split at hstep
  · cases hstep
    refine facts_of_ended rfl ⟨files, hleft.concat ⟨by decide, by decide, by decide, rfl, rfl⟩
      fun _ => ⟨rfl, ?_⟩, ?_, ?_, ?_⟩
    · rw [hpending]
      rfl
    · rw [Function.update_of_ne hne.symm]
    · intro _ _
      rw [Function.update_self]
    · rw [any_concat, any_concat, hfails, hkeeps]
      rintro (hbad | hbad)
      · cases hbad
      · cases hbad
  · cases hstep
    refine facts_of_ended rfl (ended_of_left (hleft.concat
      ⟨by decide, by decide, by decide, rfl, rfl⟩ fun _ => ⟨rfl, ?_⟩) fun _ hbad => ?_)
    · rw [hpending]
      rfl
    · rw [any_concat] at hbad
      exact absurd hbad (by simp [DownloadEvent.keeps])
  · cases hstep

/-- **One step.** -/
theorem Facts.step (h : Facts body bContentLengthInitialized data marker before files d events)
    (hne : data ≠ marker)
    (hstep : step body bContentLengthInitialized data marker (d, files) event = some (d', files')) :
    Facts body bContentLengthInitialized data marker before files' d' (events ++ [event]) := by
  have hrunning : d.phase ≠ .finished := by
    intro hphase
    unfold CacheSaveHttpGetThread.step at hstep
    dsimp only at hstep
    rw [hphase] at hstep
    cases hstep
  obtain ⟨hleft, hhappened⟩ := h.running hrunning
  cases hphase : d.phase with
  | requesting => exact facts_requesting hphase hleft hhappened hstep
  | reading => exact facts_reading hphase hleft hhappened hstep
  | opening pucBuffer => exact facts_opening hphase hleft hhappened hne hstep
  | writing pucBuffer => exact facts_writing hphase hleft hhappened hne hstep
  | touching => exact facts_touching hphase hleft hhappened hne hstep
  | touched => exact facts_touched hphase hleft hhappened hstep
  | received => exact facts_received hphase hleft hhappened hstep
  | disconnecting => exact facts_disconnecting hphase hleft hhappened hstep
  | closing failed => exact facts_closing hphase hleft hhappened hstep
  | checking => exact facts_checking hphase hleft hhappened hstep
  | removing => exact facts_removing hphase hleft hhappened hne hstep
  | finished => exact absurd hphase hrunning

/-! ### Whole downloads -/

/-- **A whole download.** -/
theorem facts_run (hne : data ≠ marker)
    (hrun : run (step body bContentLengthInitialized data marker) (Download.start, before) events =
      some (d, files)) :
    Facts body bContentLengthInitialized data marker before files d events := by
  induction events using List.reverseRecOn generalizing d files with
  | nil =>
    cases hrun
    exact facts_start before
  | append_singleton events event ih =>
    rw [run_concat] at hrun
    obtain ⟨⟨d₁, files₁⟩, hrun, hstep⟩ := Option.bind_eq_some_iff.mp hrun
    exact (ih hrun).step hne hstep

/-- The name of the marker, `<path>.complete`. -/
def completedPath (path : List UInt8) : List UInt8 :=
  path ++ [46, 99, 111, 109, 112, 108, 101, 116, 101]

theorem ne_completedPath (path : List UInt8) : path ≠ completedPath path := by
  intro h
  have hlength := congrArg List.length h
  unfold completedPath at hlength
  rw [List.length_append] at hlength
  exact absurd hlength (by simp)

/-- **The marker of a download.**  After a download that has ended, a marker means that the file
has the whole body, exactly when a download that makes the marker, or finds it, saves the body and
does not fail, or leaves its file where it fails. -/
theorem complete_iff (body : List UInt8) (bContentLengthInitialized : Bool) (path : List UInt8)
    (before files : Files (List UInt8)) (d : Download) (events : List DownloadEvent)
    (hrun : run (step body bContentLengthInitialized path (completedPath path))
      (Download.start, before) events = some (d, files)) (hphase : d.phase = .finished) :
    (files (completedPath path) ≠ none → files path = some body) ↔
      KeepsBody body path (completedPath path) before events :=
  ((facts_run (ne_completedPath path) hrun).ended hphase).keepsBody_iff hphase

/-- A body of one byte, and nothing fails. -/
theorem complete_iff_one_byte :
    ∃ d files, run (step [1] true [97] (completedPath [97])) (Download.start, fun _ => none)
        [.header, .read 1, .open true, .write (some 0), .touchOpen true, .touchClose true,
          .nowLocalInMilliSecs true, .finish true, .close true] = some (d, files) ∧
      ((files (completedPath [97]) ≠ none → files [97] = some [1]) ↔
        KeepsBody [1] [97] (completedPath [97]) (fun _ => none)
          [.header, .read 1, .open true, .write (some 0), .touchOpen true, .touchClose true,
            .nowLocalInMilliSecs true, .finish true, .close true]) :=
  have ⟨_, _, hrun, hphase⟩ :
      ∃ d files, run (step [1] true [97] (completedPath [97])) (Download.start, fun _ => none)
          [.header, .read 1, .open true, .write (some 0), .touchOpen true, .touchClose true,
            .nowLocalInMilliSecs true, .finish true, .close true] = some (d, files) ∧
        d.phase = .finished := ⟨_, _, rfl, rfl⟩
  ⟨_, _, hrun, complete_iff _ _ _ _ _ _ _ hrun hphase⟩

/-- The socket cannot be closed after the last byte: the file is removed, and the marker stays. -/
theorem not_complete_socket_close :
    ∃ d files, run (step [1] true [97] (completedPath [97])) (Download.start, fun _ => none)
        [.header, .read 1, .open true, .write (some 0), .touchOpen true, .touchClose true,
          .nowLocalInMilliSecs true, .finish false, .close true, .isFileExisting true, .remove true]
        = some (d, files) ∧ d.phase = .finished ∧
      ¬(files (completedPath [97]) ≠ none → files [97] = some [1]) := by
  refine ⟨_, _, rfl, rfl, ?_⟩
  intro h
  exact absurd (h (by decide)) (by decide)

end CacheSaveHttpGetThread

end CatraLibraries
