/-
# A download that keeps its marker true

Two things that a download may do make a marker stand for something else than the whole body: it
empties or removes its file while the marker is there, and it leaves bytes of a chunk out.  A
download that does neither makes its marker when the file has the whole body, and does not touch the
file while the marker is there.  This holds whatever other files do, and between any two of its
steps.
-/
import CatraLibraries.HTTPCacheManager.CacheSaveHttpGetThread

namespace CatraLibraries

namespace CacheSaveHttpGetThread

variable {κ : Type} {body : List UInt8} {bContentLengthInitialized : Bool} {data marker : κ}
  {files files' : Files κ} {isReceived : Prop} {d d' : Download} {event : DownloadEvent}

/-- A download empties or removes its file only where there is no marker, and leaves no bytes out. -/
def DownloadEvent.Careful (marker : κ) (files : Files κ) : DownloadEvent → Prop
  | .write (some (_ + 1)) => False
  | .open true => files marker = none
  | .remove true => files marker = none
  | _ => True

instance (marker : κ) (files : Files κ) (event : DownloadEvent) : Decidable (event.Careful marker files) :=
  match event with
  | .write (some (_ + 1)) => inferInstanceAs (Decidable False)
  | .open true => inferInstanceAs (Decidable (files marker = none))
  | .remove true => inferInstanceAs (Decidable (files marker = none))
  | .write (some 0) | .write none | .open false | .remove false | .requestFails | .header
  | .headerOfGet | .read _ | .readFails | .touchOpen _ | .touchClose _ | .nowLocalInMilliSecs _
  | .finish _ | .close _ | .isFileExisting _ => inferInstanceAs (Decidable True)

/-- The file has the bytes that were saved, and there is no marker. -/
structure Saved (body : List UInt8) (data marker : κ) (files : Files κ) (saved : ℕ) : Prop where
  unmarked : files marker = none
  content : files data = some (body.take saved)

/-- What the file of a download has in each phase; `isReceived` says that the last byte was
received. -/
def Progress (body : List UInt8) (bContentLengthInitialized : Bool) (data marker : κ)
    (files : Files κ) (isReceived : Prop) (d : Download) : Prop :=
  match d.phase with
  | .requesting => d.ulChunkReadIndex = 0 ∧ d.llBufferDataSaved = 0
  | .reading => (d.ulChunkReadIndex = 0 → d.llBufferDataSaved = 0) ∧
      (d.ulChunkReadIndex ≠ 0 → Saved body data marker files d.llBufferDataSaved)
  | .opening pucBuffer => d.ulChunkReadIndex ≠ 0 ∧ d.llBufferDataSaved = 0 ∧
      pucBuffer = body.take pucBuffer.length
  | .writing pucBuffer => d.ulChunkReadIndex ≠ 0 ∧
      Saved body data marker files d.llBufferDataSaved ∧
      pucBuffer = (body.drop d.llBufferDataSaved).take pucBuffer.length
  | .touching => files marker = none ∧ files data = some body ∧ isReceived ∧
      bContentLengthInitialized = true ∧ body.length ≤ d.llBufferDataSaved
  | .touched => bContentLengthInitialized = true ∧ body.length ≤ d.llBufferDataSaved
  | _ => True

/-- What a step of a download does to the files. -/
structure Moved (body : List UInt8) (bContentLengthInitialized : Bool) (data marker : κ)
    (files files' : Files κ) (isReceived : Prop) (d' : Download) : Prop where
  progress : Progress body bContentLengthInitialized data marker files'
    (isReceived ∨ d'.phase = .touching) d'
  others : ∀ name, name ≠ data → name ≠ marker → files' name = files name
  marked : files' marker ≠ none →
    (files marker ≠ none ∧ files' data = files data) ∨ (files' data = some body ∧ isReceived)

/-! ### Steps without the files -/

theorem progress_start :
    Progress body bContentLengthInitialized data marker files isReceived Download.start :=
  ⟨rfl, rfl⟩

theorem moved_of_progress
    (h : Progress body bContentLengthInitialized data marker files
      (isReceived ∨ d'.phase = .touching) d') :
    Moved body bContentLengthInitialized data marker files files isReceived d' where
  progress := h
  others := fun _ _ _ => rfl
  marked := fun h => Or.inl ⟨h, rfl⟩

/-- The end of a download asks nothing of the files. -/
theorem progress_closingHttpGet (failed : Bool) :
    Progress body bContentLengthInitialized data marker files isReceived
      (d.closingHttpGet failed) := by
  unfold Download.closingHttpGet
  split
  · exact trivial
  · split
    · exact trivial
    · exact trivial

theorem progress_loop (hzero : d.ulChunkReadIndex = 0 → d.llBufferDataSaved = 0)
    (hsaved : (bContentLengthInitialized = true ∧ body.length ≤ d.llBufferDataSaved) ∨
      (d.ulChunkReadIndex ≠ 0 → Saved body data marker files d.llBufferDataSaved)) :
    Progress body bContentLengthInitialized data marker files isReceived
      (d.loop body bContentLengthInitialized) := by
  unfold Download.loop
  split
  · exact trivial
  · next hlength => exact ⟨hzero, hsaved.resolve_left hlength⟩

theorem progress_writeBytes {pucBuffer : List UInt8} (hindex : d.ulChunkReadIndex ≠ 0)
    (hsaved : Saved body data marker files d.llBufferDataSaved)
    (hbuffer : pucBuffer = (body.drop d.llBufferDataSaved).take pucBuffer.length) :
    Progress body bContentLengthInitialized data marker files isReceived
      (d.writeBytes pucBuffer) := by
  unfold Download.writeBytes
  split
  · exact progress_closingHttpGet true
  · exact ⟨hindex, hsaved, hbuffer⟩

theorem take_of_take {pucBuffer : List UInt8} {n : ℕ} (h : pucBuffer = body.take n) :
    pucBuffer = body.take pucBuffer.length := by
  rw [h, List.length_take, List.take_eq_take_iff]
  omega

/-- The files of others do not matter. -/
theorem Progress.congr {isReceived' : Prop}
    (h : Progress body bContentLengthInitialized data marker files isReceived d)
    (hdata : files' data = files data) (hmarker : files' marker = files marker)
    (hreceived : isReceived → isReceived') :
    Progress body bContentLengthInitialized data marker files' isReceived' d := by
  have hsaved : ∀ n, Saved body data marker files n → Saved body data marker files' n :=
    fun n hsaved => ⟨hmarker.trans hsaved.unmarked, hdata.trans hsaved.content⟩
  unfold Progress at h ⊢
  cases hphase : d.phase with
  | reading =>
    rw [hphase] at h
    exact ⟨h.1, fun hindex => hsaved _ (h.2 hindex)⟩
  | writing pucBuffer =>
    rw [hphase] at h
    exact ⟨h.1, hsaved _ h.2.1, h.2.2⟩
  | touching =>
    rw [hphase] at h
    exact ⟨hmarker.trans h.1, hdata.trans h.2.1, hreceived h.2.2.1, h.2.2.2⟩
  | _ =>
    rw [hphase] at h
    exact h

/-! ### Steps with the files -/

variable [DecidableEq κ]

theorem moved_reading (hphase : d.phase = .reading)
    (h : Progress body bContentLengthInitialized data marker files isReceived d)
    (hstep : step body bContentLengthInitialized data marker (d, files) event = some (d', files')) :
    Moved body bContentLengthInitialized data marker files files' isReceived d' := by
  unfold Progress at h
  rw [hphase] at h
  obtain ⟨hzero, hsaved⟩ := h
  unfold step at hstep
  dsimp only at hstep
  rw [hphase] at hstep
  dsimp only at hstep
  split at hstep
  · cases hstep
    exact moved_of_progress (progress_closingHttpGet true)
  · split at hstep
    · split at hstep
      · next hindex =>
        -- the first chunk: the file is opened first
        cases hstep
        refine moved_of_progress ⟨Nat.succ_ne_zero _, hzero hindex, ?_⟩
        rw [hzero hindex, List.drop_zero]
        exact take_of_take rfl
      · next hindex =>
        cases hstep
        exact moved_of_progress
          (progress_writeBytes (Nat.succ_ne_zero _) (hsaved hindex) (take_of_take rfl))
    · cases hstep
  · cases hstep

theorem moved_opening (hne : data ≠ marker) {pucBuffer : List UInt8}
    (hphase : d.phase = .opening pucBuffer)
    (h : Progress body bContentLengthInitialized data marker files isReceived d)
    (hcareful : event.Careful marker files)
    (hstep : step body bContentLengthInitialized data marker (d, files) event = some (d', files')) :
    Moved body bContentLengthInitialized data marker files files' isReceived d' := by
  unfold Progress at h
  rw [hphase] at h
  obtain ⟨hindex, hzero, hbuffer⟩ := h
  unfold step at hstep
  dsimp only at hstep
  rw [hphase] at hstep
  dsimp only at hstep
  split at hstep
  · cases hstep
    have hunmarked : Function.update files data (some []) marker = none := by
      rw [Function.update_of_ne hne.symm]
      exact hcareful
    refine ⟨progress_writeBytes hindex ⟨hunmarked, ?_⟩ ?_, ?_, ?_⟩
    · show Function.update files data (some []) data = some (body.take d.llBufferDataSaved)
      rw [Function.update_self, hzero, List.take_zero]
    · show pucBuffer = (body.drop d.llBufferDataSaved).take pucBuffer.length
      rw [hzero, List.drop_zero]
      exact hbuffer
    · exact fun name hdata _ => Function.update_of_ne hdata _ _
    · exact fun hmarked => absurd hunmarked hmarked
  · cases hstep
    exact moved_of_progress (progress_closingHttpGet true)
  · cases hstep

theorem moved_writing (hne : data ≠ marker) {pucBuffer : List UInt8}
    (hphase : d.phase = .writing pucBuffer)
    (h : Progress body bContentLengthInitialized data marker files isReceived d)
    (hcareful : event.Careful marker files)
    (hstep : step body bContentLengthInitialized data marker (d, files) event = some (d', files')) :
    Moved body bContentLengthInitialized data marker files files' isReceived d' := by
  unfold Progress at h
  rw [hphase] at h
  obtain ⟨hindex, hsaved, hbuffer⟩ := h
  unfold step at hstep
  dsimp only at hstep
  rw [hphase] at hstep
  dsimp only at hstep
  split at hstep
  · cases hstep
    exact moved_of_progress (progress_closingHttpGet true)
  · next unwritten =>
    split at hstep
    · cases hstep
      cases unwritten with
      | succ n => exact hcareful.elim
      | zero =>
        -- the whole chunk is appended
        have hunmarked : Function.update files data
            ((files data).map (· ++ pucBuffer.take (pucBuffer.length - 0))) marker = none := by
          rw [Function.update_of_ne hne.symm]
          exact hsaved.unmarked
        have hcontent : Function.update files data
            ((files data).map (· ++ pucBuffer.take (pucBuffer.length - 0))) data =
            some (body.take (d.llBufferDataSaved + pucBuffer.length)) := by
          rw [Function.update_self, hsaved.content, Nat.sub_zero, List.take_length, Option.map_some,
            List.take_add, ← hbuffer]
        refine ⟨?_, fun name hdata _ => Function.update_of_ne hdata _ _,
          fun hmarked => absurd hunmarked hmarked⟩
        unfold Download.saved
        dsimp only
        split
        · next hlast =>
          refine ⟨hunmarked, ?_, Or.inr rfl, hlast.1, hlast.2.ge⟩
          rw [hcontent, hlast.2, List.take_length]
        · exact progress_loop (fun hzero => absurd hzero hindex)
            (Or.inr fun _ => ⟨hunmarked, hcontent⟩)
    · cases hstep
  · cases hstep

theorem moved_touching (hne : data ≠ marker) (hphase : d.phase = .touching)
    (h : Progress body bContentLengthInitialized data marker files isReceived d)
    (hstep : step body bContentLengthInitialized data marker (d, files) event = some (d', files')) :
    Moved body bContentLengthInitialized data marker files files' isReceived d' := by
  unfold Progress at h
  rw [hphase] at h
  obtain ⟨hunmarked, hcontent, hreceived, hlength⟩ := h
  unfold step at hstep
  dsimp only at hstep
  rw [hphase] at hstep
  dsimp only at hstep
  split at hstep
  · cases hstep
    refine ⟨hlength, fun name _ hmarker => Function.update_of_ne hmarker _ _, fun _ => Or.inr ?_⟩
    refine ⟨?_, hreceived⟩
    rw [Function.update_of_ne hne]
    exact hcontent
  · cases hstep
    exact moved_of_progress (progress_closingHttpGet true)
  · cases hstep

theorem moved_removing (hne : data ≠ marker) (hphase : d.phase = .removing)
    (hcareful : event.Careful marker files)
    (hstep : step body bContentLengthInitialized data marker (d, files) event = some (d', files')) :
    Moved body bContentLengthInitialized data marker files files' isReceived d' := by
  unfold step at hstep
  dsimp only at hstep
  rw [hphase] at hstep
  dsimp only at hstep
  split at hstep
  · cases hstep
    refine ⟨trivial, fun name hdata _ => Function.update_of_ne hdata _ _, fun hmarked => ?_⟩
    rw [Function.update_of_ne hne.symm] at hmarked
    exact absurd hcareful hmarked
  · cases hstep
    exact moved_of_progress trivial
  · cases hstep

/-- **One step of a careful download.** -/
theorem Progress.step (hne : data ≠ marker)
    (h : Progress body bContentLengthInitialized data marker files isReceived d)
    (hcareful : event.Careful marker files)
    (hstep : step body bContentLengthInitialized data marker (d, files) event = some (d', files')) :
    Moved body bContentLengthInitialized data marker files files' isReceived d' := by
  cases hphase : d.phase with
  | reading => exact moved_reading hphase h hstep
  | opening pucBuffer => exact moved_opening hne hphase h hcareful hstep
  | writing pucBuffer => exact moved_writing hne hphase h hcareful hstep
  | touching => exact moved_touching hne hphase h hstep
  | removing => exact moved_removing hne hphase hcareful hstep
  | requesting =>
    unfold Progress at h
    rw [hphase] at h
    unfold CacheSaveHttpGetThread.step at hstep
    dsimp only at hstep
    rw [hphase] at hstep
    dsimp only at hstep
    split at hstep
    · cases hstep
      exact moved_of_progress (progress_closingHttpGet true)
    · cases hstep
      exact moved_of_progress (progress_loop (fun _ => h.2) (Or.inr (absurd h.1)))
    · cases hstep
      exact moved_of_progress trivial
    · cases hstep
  | touched =>
    unfold Progress at h
    rw [hphase] at h
    unfold CacheSaveHttpGetThread.step at hstep
    dsimp only at hstep
    rw [hphase] at hstep
    dsimp only at hstep
    split at hstep
    · cases hstep
      unfold Download.loop
      rw [if_pos h]
      exact moved_of_progress trivial
    · cases hstep
      exact moved_of_progress (progress_closingHttpGet true)
    · cases hstep
  | received =>
    unfold CacheSaveHttpGetThread.step at hstep
    dsimp only at hstep
    rw [hphase] at hstep
    dsimp only at hstep
    split at hstep
    · cases hstep
      exact moved_of_progress trivial
    · cases hstep
      exact moved_of_progress (progress_closingHttpGet true)
    · cases hstep
  | disconnecting =>
    unfold CacheSaveHttpGetThread.step at hstep
    dsimp only at hstep
    rw [hphase] at hstep
    dsimp only at hstep
    split at hstep
    · cases hstep
      exact moved_of_progress (progress_closingHttpGet false)
    · cases hstep
      exact moved_of_progress (progress_closingHttpGet true)
    · cases hstep
  | closing failed =>
    unfold CacheSaveHttpGetThread.step at hstep
    dsimp only at hstep
    rw [hphase] at hstep
    dsimp only at hstep
    split at hstep
    · cases hstep
      refine moved_of_progress ?_
      split
      · exact trivial
      · exact trivial
    · cases hstep
      exact moved_of_progress trivial
    · cases hstep
  | checking =>
    unfold CacheSaveHttpGetThread.step at hstep
    dsimp only at hstep
    rw [hphase] at hstep
    dsimp only at hstep
    split at hstep
    · cases hstep
      refine moved_of_progress ?_
      split
      · exact trivial
      · exact trivial
    · cases hstep
      exact moved_of_progress trivial
    · cases hstep
  | finished =>
    unfold CacheSaveHttpGetThread.step at hstep
    dsimp only at hstep
    rw [hphase] at hstep
    cases hstep

end CacheSaveHttpGetThread

end CatraLibraries
