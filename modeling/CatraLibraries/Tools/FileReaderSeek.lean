/-
# Where a seek ends

`FileReader::seek` is to move the offset to the start, the offset or the size of the file plus a
displacement, and to stay inside the file.  From the start it does.  Relative to the offset, the sum
is compared with the size as an `unsigned long long` before it is asked whether it is negative, so
that a move to before the start ends at the end of the file.  Relative to the end, the displacement
is negated, which has no defined value for the least `long long`.
-/
import CatraLibraries.Tools.FileReaderRun

namespace CatraLibraries

open Memory

namespace FileReader

variable {r : FileReader}

/-- The reader has a file, and its offset lies in it. -/
structure Opened (r : FileReader) : Prop where
  status : r.frFileReaderStatus = .initialized
  fileSize : r.ullFileSize = r.contents.length
  offset_le : r.ullCurrentFileOffset ≤ r.ullFileSize

/-- What the displacement is relative to. -/
def origin (r : FileReader) : Whence → ℤ
  | .seekSet => 0
  | .seekCur => r.ullCurrentFileOffset
  | .seekEnd => r.ullFileSize
  | .other => r.ullCurrentFileOffset

/-- The nearest place inside a file. -/
def clamp (size : ℕ) (z : ℤ) : ℕ := (max 0 (min z size)).toNat

/-- The call moves the offset to the nearest place in the file, and reports it. -/
def SeeksTo (r : FileReader) (llBytes : Int64) (iWhence : Whence) : Prop :=
  let target := clamp r.ullFileSize (r.origin iWhence + llBytes.toInt)
  r.seek llBytes iWhence = .ok (.ok target, { r with ullCurrentFileOffset := target })

theorem Opened.size_lt (h : Opened r) : r.ullFileSize < 2 ^ 63 := by
  rw [h.fileSize]
  exact r.length_contents_lt

/-- In a file that is not empty, the call stores what `seekOffset` gives. -/
theorem Opened.seek_eq (h : Opened r) (hne : r.ullFileSize ≠ 0) (llBytes : Int64)
    (iWhence : Whence) :
    r.seek llBytes iWhence
      = (seekOffset r.ullFileSize r.ullCurrentFileOffset llBytes iWhence >>= fun offset =>
          .ok (.ok offset, { r with ullCurrentFileOffset := offset })) := by
  rw [seek, if_neg (by simp [h.status]), if_neg hne]
  rfl

/-- An empty file has one place. -/
theorem Opened.seeksTo_of_empty (h : Opened r) (hempty : r.ullFileSize = 0) (llBytes : Int64)
    (iWhence : Whence) : SeeksTo r llBytes iWhence := by
  have hoffset : r.ullCurrentFileOffset = 0 := Nat.le_zero.mp (hempty ▸ h.offset_le)
  have htarget : clamp r.ullFileSize (r.origin iWhence + llBytes.toInt) = r.ullCurrentFileOffset := by
    rw [hempty, hoffset, clamp]
    omega
  show r.seek llBytes iWhence = _
  rw [htarget, seek, if_neg (by simp [h.status]), if_pos hempty]

/-- The place that `seek` gives is the nearest one, unless the sum with the offset is negative. -/
theorem seekTarget_eq_clamp_iff (h : Opened r) (hne : r.ullFileSize ≠ 0) {llBytes : Int64}
    {iWhence : Whence} (hwhence : iWhence ≠ .other) :
    seekTarget r.ullFileSize r.ullCurrentFileOffset llBytes iWhence
        = clamp r.ullFileSize (r.origin iWhence + llBytes.toInt) ↔
      (iWhence = .seekCur → 0 ≤ r.ullCurrentFileOffset + llBytes.toInt) := by
  have hle := h.offset_le
  unfold clamp
  cases iWhence with
  | seekSet => exact iff_of_true (by simp only [seekTarget, origin]; omega) (fun h => by cases h)
  | seekCur =>
    simp only [seekTarget, origin, forall_const]
    split_ifs with hinside <;> omega
  | seekEnd => exact iff_of_true (by simp only [seekTarget, origin]; omega) (fun h => by cases h)
  | other => exact absurd rfl hwhence

/-- **Where `seek` ends** at the nearest place in the file: always in an empty one, and otherwise
unless it would go from the offset to before the start, or from the end by the least displacement.
-/
theorem seeksTo_iff (h : Opened r) {llBytes : Int64} {iWhence : Whence}
    (hwhence : iWhence ≠ .other) :
    SeeksTo r llBytes iWhence ↔ r.ullFileSize = 0 ∨
      ((iWhence = .seekCur → 0 ≤ r.ullCurrentFileOffset + llBytes.toInt) ∧
        (iWhence = .seekEnd → llBytes.toInt ≠ -2 ^ 63)) := by
  by_cases hempty : r.ullFileSize = 0
  · exact iff_of_true (h.seeksTo_of_empty hempty llBytes iWhence) (Or.inl hempty)
  rw [or_iff_right hempty, SeeksTo, h.seek_eq hempty]
  by_cases hmin : iWhence = .seekEnd → llBytes.toInt ≠ -2 ^ 63
  · rw [seekOffset_eq h.offset_le h.size_lt hmin, ok_bind, and_iff_left hmin,
      ← seekTarget_eq_clamp_iff h hempty hwhence]
    constructor
    · intro hcall
      exact Except.ok.inj (Prod.mk.inj (Except.ok.inj hcall)).1
    · intro htarget
      rw [htarget]
  · -- the negation overflows
    refine iff_of_false (fun hcall => ?_) fun hboth => hmin hboth.2
    obtain ⟨rfl, hleast⟩ := Classical.not_imp.mp hmin
    rw [not_not] at hleast
    have hfault : seekOffset r.ullFileSize r.ullCurrentFileOffset llBytes .seekEnd
        = .error .undefinedArithmetic := by
      rw [seekOffset, if_neg (by omega), if_pos hleast]
    rw [hfault, error_bind] at hcall
    exact absurd hcall (by simp)

theorem sixBytes_opened : Opened sixBytes := ⟨rfl, rfl, by decide⟩

/-- Two bytes before the end. -/
theorem seeksTo_sixBytes : SeeksTo sixBytes (-2) .seekEnd :=
  (seeksTo_iff sixBytes_opened (by decide)).mpr (Or.inr ⟨nofun, fun _ => by decide⟩)

/-- One byte back from the start ends at the end of the file. -/
theorem not_seeksTo_beforeStart :
    sixBytes.seek (-1) .seekCur
        = .ok (.ok 6, { sixBytes with ullCurrentFileOffset := 6 }) ∧
      ¬ SeeksTo sixBytes (-1) .seekCur ∧
      sixBytes.seek (-9223372036854775808) .seekEnd = .error .undefinedArithmetic := by
  have hend : sixBytes.seek (-1) .seekCur
      = .ok (.ok 6, { sixBytes with ullCurrentFileOffset := 6 }) := by rfl
  refine ⟨hend, fun hstart => ?_, by rfl⟩
  have hboth := Prod.mk.inj (Except.ok.inj (hend.symm.trans hstart))
  exact absurd (Except.ok.inj hboth.1) (by decide)

end FileReader

end CatraLibraries
