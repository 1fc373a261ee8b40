/-
# Compressing a closed trace file

`Tracer::gzipAndDeleteCurrentTraceFile` copies a closed trace file, block by block, into a compressed
one, and removes it.  A block that is shorter than the others is taken for the last one.  A read that
fails ends the copy, and so does a `gzwrite` that accepts nothing; but how much of a block a `gzwrite`
accepts is not looked at otherwise, and neither is the end of `gzclose`.

So the file may be removed although the compressed one does not hold all of it.  `keepsContent_iff`
says when it does not happen.

What the calls answer is given round by round.  A compressed file counts as the bytes that it expands
to.
-/
import Mathlib.Algebra.Group.Nat.Defs
import Mathlib.Data.List.Basic

namespace CatraLibraries

namespace Tracer

/-! ### The copy -/

/-- One turn of the copy: the bytes that `read` gives at most, less one, if it does not fail; and those
that `gzwrite` accepts at most. -/
structure GzipRound where
  read : Option ℕ
  accepted : ℕ
  deriving DecidableEq, Repr

/-- How the copy ends, with the bytes that the compressed file has been given. -/
inductive GzipCopy
  | readFailed
  | gzwriteFailed
  | copied (gz : List UInt8)
  | running
  deriving DecidableEq, Repr

/-- `FileIO::readChars` of a block: nothing at the end of the file only. -/
def readChars (content : List UInt8) (block size : ℕ) : List UInt8 :=
  content.take (min block (size + 1))

/-- `gzwrite`, whose length is an `unsigned`. -/
def gzwrite (bytes : List UInt8) (accepted : ℕ) : List UInt8 :=
  bytes.take (min accepted (bytes.length % 2 ^ 32))

/-- The loop over blocks of `block` bytes. -/
def gzipLoop (block : ℕ) (content gz : List UInt8) : List GzipRound → GzipCopy
  | [] => .running
  | round :: rounds =>
    match round.read with
    | none => .readFailed
    | some size =>
      let bytes := readChars content block size
      if bytes = [] then
        -- `continue` goes on to the test of the loop
        if bytes.length = block then gzipLoop block content gz rounds else .copied gz
      else if gzwrite bytes round.accepted = [] then .gzwriteFailed
      else if bytes.length = block then
        gzipLoop block (content.drop bytes.length) (gz ++ gzwrite bytes round.accepted) rounds
      else .copied (gz ++ gzwrite bytes round.accepted)

/-- What the calls answer: the names of the two files made, room left on the disk, the files opened,
the rounds, the bytes that `gzclose` gets into the file at most, and the trace file closed and
removed. -/
structure GzipIO where
  named : Bool
  roomLeft : Bool
  opened : Bool
  gzopened : Bool
  rounds : List GzipRound
  gzclosed : ℕ
  closed : Bool
  removed : Bool
  deriving DecidableEq, Repr

/-- The trace file removed or not, and the compressed file if it is complete. -/
structure GzipEnd where
  sourceRemoved : Bool
  compressed : Option (List UInt8)
  deriving DecidableEq, Repr

/-- `gzipAndDeleteCurrentTraceFile`; a file that cannot be removed is no error. -/
def gzipAndDeleteCurrentTraceFile (lSizeOfEachBlockToGzip : ℕ) (content : List UInt8)
    (io : GzipIO) : GzipEnd :=
  if io.named ∧ io.roomLeft ∧ io.opened ∧ io.gzopened then
    match gzipLoop (lSizeOfEachBlockToGzip * 1024) content [] io.rounds with
    | .copied gz => ⟨io.closed && io.removed, some (gz.take io.gzclosed)⟩
    | _ => ⟨false, none⟩
  else ⟨false, none⟩

/-- **What compressing should do**: the trace file is removed only if the compressed file holds its
whole content. -/
def KeepsContent (content : List UInt8) (e : GzipEnd) : Prop :=
  e.sourceRemoved = true → e.compressed = some content

/-! ### When nothing is lost -/

/-- The copy comes to its end: no read fails, and each `gzwrite` accepts something. -/
def Ends (block : ℕ) : List UInt8 → List GzipRound → Prop
  | _, [] => False
  | content, round :: rounds =>
    ∃ size, round.read = some size ∧
      let bytes := readChars content block size
      (bytes ≠ [] → gzwrite bytes round.accepted ≠ [])
        ∧ (bytes.length = block → Ends block (content.drop bytes.length) rounds)

/-- Each read gives a block, or the rest of the file, and each `gzwrite` accepts what it is given. -/
def Whole (block : ℕ) : List UInt8 → List GzipRound → Prop
  | _, [] => True
  | content, round :: rounds =>
    ∀ size, round.read = some size →
      let bytes := readChars content block size
      bytes.length = min block content.length
        ∧ (gzwrite bytes round.accepted).length = bytes.length
        ∧ (bytes.length = block → Whole block (content.drop bytes.length) rounds)

theorem length_gzwrite_le (bytes : List UInt8) (accepted : ℕ) :
    (gzwrite bytes accepted).length ≤ bytes.length :=
  (List.take_prefix _ bytes).length_le

theorem gzwrite_eq_self {bytes : List UInt8} {accepted : ℕ}
    (h : (gzwrite bytes accepted).length = bytes.length) : gzwrite bytes accepted = bytes :=
  (List.take_prefix _ _).eq_of_length h

theorem readChars_append (content : List UInt8) (block size : ℕ) :
    readChars content block size ++ content.drop (readChars content block size).length
      = content := by
  have h : readChars content block size = content.take (readChars content block size).length := by
    unfold readChars
    rw [List.length_take, ← List.take_eq_take_min]
  conv_rhs => rw [← List.take_append_drop (readChars content block size).length content]
  rw [← h]

/-- A round in which no call fails. -/
theorem gzipLoop_cons {block size : ℕ} {content : List UInt8} {round : GzipRound}
    (hread : round.read = some size)
    (haccepts : readChars content block size ≠ [] →
      gzwrite (readChars content block size) round.accepted ≠ [])
    (gz : List UInt8) (rounds : List GzipRound) :
    gzipLoop block content gz (round :: rounds)
      = if (readChars content block size).length = block then
          gzipLoop block (content.drop (readChars content block size).length)
            (gz ++ gzwrite (readChars content block size) round.accepted) rounds
        else .copied (gz ++ gzwrite (readChars content block size) round.accepted) := by
  rw [gzipLoop, hread]
  dsimp only
  by_cases hempty : readChars content block size = []
  · rw [if_pos hempty, hempty]
    simp only [gzwrite, List.take_nil, List.append_nil, List.length_nil, List.drop_zero]
  · rw [if_neg hempty, if_neg (haccepts hempty)]

/-- **The copy loses nothing exactly when its rounds are whole.** -/
theorem gzipLoop_of_ends {block : ℕ} {rounds : List GzipRound} {content : List UInt8}
    (h : Ends block content rounds) (gz : List UInt8) :
    ∃ added, gzipLoop block content gz rounds = .copied (gz ++ added)
      ∧ added.length ≤ content.length
      ∧ (added.length = content.length → Whole block content rounds)
      ∧ (Whole block content rounds → added = content) := by
  induction rounds generalizing content gz with
  | nil => exact h.elim
  | cons round rounds ih =>
    obtain ⟨size, hread, haccepts, hnext⟩ := h
    have hcut := readChars_append content block size
    have hcutLength := congrArg List.length hcut
    rw [List.length_append] at hcutLength
    have hblock : (readChars content block size).length ≤ block := by
      unfold readChars
      rw [List.length_take]
      omega
    have hwrite := length_gzwrite_le (readChars content block size) round.accepted
    rw [gzipLoop_cons hread haccepts]
    by_cases hfull : (readChars content block size).length = block
    · -- a whole block, and the rounds behind it
      obtain ⟨added, hloop, hle, hwhole, hsame⟩ :=
        ih (hnext hfull) (gz ++ gzwrite (readChars content block size) round.accepted)
      rw [if_pos hfull, hloop]
      refine ⟨gzwrite (readChars content block size) round.accepted ++ added, ?_, ?_, ?_, ?_⟩
      · rw [List.append_assoc]
      · rw [List.length_append]
        omega
      · intro hlength size' hsize'
        obtain rfl := Option.some.inj (hread.symm.trans hsize')
        rw [List.length_append] at hlength
        exact ⟨by omega, by omega, fun _ => hwhole (by omega)⟩
      · intro hrounds
        obtain ⟨-, hall, hrest⟩ := hrounds size hread
        rw [gzwrite_eq_self hall, hsame (hrest hfull), hcut]
    · -- the last one
      rw [if_neg hfull]
      refine ⟨_, rfl, by omega, ?_, ?_⟩
      · intro hlength size' hsize'
        obtain rfl := Option.some.inj (hread.symm.trans hsize')
        exact ⟨by omega, by omega, fun heq => absurd heq hfull⟩
      · intro hrounds
        obtain ⟨hlast, hall, -⟩ := hrounds size hread
        replace hlast : (readChars content block size).length = min block content.length := hlast
        have hlength : (readChars content block size).length = content.length := by omega
        rw [gzwrite_eq_self hall]
        exact (List.take_prefix _ content).eq_of_length hlength

/-- A copy comes to its end only so. -/
theorem ends_of_copied {block : ℕ} {rounds : List GzipRound} {content gz gz' : List UInt8}
    (h : gzipLoop block content gz rounds = .copied gz') : Ends block content rounds := by
  induction rounds generalizing content gz with
  | nil => cases h
  | cons round rounds ih =>
    rw [gzipLoop] at h
    split at h
    · cases h
    · next size hread =>
      have haccepts : readChars content block size ≠ [] →
          gzwrite (readChars content block size) round.accepted ≠ [] := by
        intro hne hnothing
        dsimp only at h
        rw [if_neg hne, if_pos hnothing] at h
        cases h
      refine ⟨size, hread, haccepts, ?_⟩
      intro hfull
      replace hfull : (readChars content block size).length = block := hfull
      have hcons := gzipLoop_cons hread haccepts gz rounds
      rw [if_pos hfull] at hcons
      refine ih (hcons.symm.trans ?_)
      rw [gzipLoop, hread]
      exact h

/-- **The trace file is safe** exactly when, if the copy comes to its end and the file is removed, each
round is whole and `gzclose` gets all of it into the compressed file. -/
theorem keepsContent_iff (lSizeOfEachBlockToGzip : ℕ) (content : List UInt8) (io : GzipIO) :
    KeepsContent content (gzipAndDeleteCurrentTraceFile lSizeOfEachBlockToGzip content io)
      ↔ ((io.named ∧ io.roomLeft ∧ io.opened ∧ io.gzopened)
          ∧ Ends (lSizeOfEachBlockToGzip * 1024) content io.rounds ∧ io.closed ∧ io.removed →
        Whole (lSizeOfEachBlockToGzip * 1024) content io.rounds
          ∧ content.length ≤ io.gzclosed) := by
  unfold gzipAndDeleteCurrentTraceFile
  by_cases hstarts : io.named ∧ io.roomLeft ∧ io.opened ∧ io.gzopened
  · rw [if_pos hstarts]
    by_cases hends : Ends (lSizeOfEachBlockToGzip * 1024) content io.rounds
    · obtain ⟨gz, hloop, hle, hwhole, hsame⟩ := gzipLoop_of_ends hends []
      rw [hloop, List.nil_append]
      unfold KeepsContent
      dsimp only
      rw [Bool.and_eq_true]
      constructor
      · rintro hkeeps ⟨-, -, hremoved⟩
        have hcontent : gz.take io.gzclosed = content := Option.some.inj (hkeeps hremoved)
        have hlength := congrArg List.length hcontent
        rw [List.length_take] at hlength
        exact ⟨hwhole (by omega), by omega⟩
      · intro hkeeps hremoved
        obtain ⟨hrounds, hclosed⟩ := hkeeps ⟨hstarts, hends, hremoved⟩
        rw [hsame hrounds, List.take_of_length_le hclosed]
    · have hnone : ∀ gz, gzipLoop (lSizeOfEachBlockToGzip * 1024) content [] io.rounds
          ≠ .copied gz := fun gz hgz => hends (ends_of_copied hgz)
      refine iff_of_true ?_ (fun h => absurd h.2.1 hends)
      split
      · next gz hgz => exact absurd hgz (hnone gz)
      · intro hremoved
        cases hremoved
  · rw [if_neg hstarts]
    refine iff_of_true (fun hremoved => ?_) (fun h => absurd h.1 hstarts)
    cases hremoved

/-- Calls that all end well, apart from what the rounds say. -/
def runOf (rounds : List GzipRound) : GzipIO where
  named := true
  roomLeft := true
  opened := true
  gzopened := true
  rounds := rounds
  gzclosed := 2000
  closed := true
  removed := true

/-- A `gzwrite` that accepts one byte of two. -/
theorem not_keepsContent_of_shortWrite :
    ¬ KeepsContent [65, 66]
      (gzipAndDeleteCurrentTraceFile 1 [65, 66] (runOf [⟨some 1023, 1⟩])) := by
  intro h
  exact absurd (h (by decide +kernel)) (by decide +kernel)

end Tracer

end CatraLibraries
