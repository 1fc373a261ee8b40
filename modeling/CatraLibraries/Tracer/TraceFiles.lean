/-
# The trace files

The trace directory, and what `Tracer/src/Tracer.cpp` does in it: at start-up (the end of
`init`), when a flush opens a new trace file or closes a full one (`flushTraceFileCache`), and
at the end (`finish`).

A trace file is named by a base, where the date may have been put in, by its number and by the
tail `.trace`; its compressed form has `.gz` behind it.  The last number given out, and whether
the numbers have come round, are kept in a file of the directory (`info`), so that they survive
the process.  A file to remove is looked for by number and tail only.

The directory lists regular files, in an order that is a choice of the file system.  Only
compressing and copying a closed file may fail here.
-/
import CatraLibraries.Lib.Stdio
import CatraLibraries.Lib.CyclicNumbers

namespace CatraLibraries

open Stdio CyclicNumbers

/-- The name of a file in the trace directory. -/
abbrev FileName := List Char

/-- What a tracer is configured with, the same at every start; `isBase` says which names the
date can make of the configured trace file name. -/
structure RetentionConfiguration where
  lTraceFilesNumberToMaintain : ℤ
  bCompressedTraceFile : Bool
  bClosedFileToBeCopied : Bool
  isBase : FileName → Bool

/-- The directory, the numbers kept in it, and the members of the running tracer. -/
structure TraceFiles where
  directory : List FileName
  info : Option (ℤ × Bool)
  running : Bool
  fileOpen : Bool
  lCurrentTraceFileNumber : ℤ
  bHasFileNumberRound : Bool
  bLastTraceFilePathName : FileName
  deriving DecidableEq

/-- How compressing a closed file ends: well; with the uncompressed file still there, which is
no error; before the compressed file exists; and with an incomplete one beside the other. -/
inductive GzipOutcome
  | done
  | sourceKept
  | notCreated
  | incomplete
  deriving DecidableEq

namespace TraceFiles

/-- The greatest file number. -/
def maxFileNumber : ℤ := 9999

/-- `"_%04ld_.trace"`; no negative number is asked for. -/
def tailOfTheFile (number : ℤ) : FileName :=
  '_' :: (printLu 4 number.toNat ++ "_.trace".toList)

/-- `"_%04ld_.trace.gz"`. -/
def tailOfTheFileGZIP (number : ℤ) : FileName := tailOfTheFile number ++ ".gz".toList

/-- The test of `removeOldFile` for a directory entry. -/
def hasTail (number : ℤ) (f : FileName) : Bool :=
  (tailOfTheFile number).isSuffixOf f || (tailOfTheFileGZIP number).isSuffixOf f

/-- A file added to the directory. -/
def create (s : TraceFiles) (f : FileName) : TraceFiles :=
  { s with directory := s.directory.insert f }

/-- A file taken out of the directory. -/
def remove (s : TraceFiles) (f : FileName) : TraceFiles :=
  { s with directory := s.directory.filter (· ≠ f) }

/-- `removeOldFile`: the first entry of the listing with the tail of the number. -/
def removeOldFile (s : TraceFiles) (listing : List FileName) (number : ℤ) : TraceFiles :=
  match listing.find? (hasTail number) with
  | some f => s.remove f
  | none => s

/-- The retention, at the file number `number`. -/
def retire (s : TraceFiles) (listing : List FileName) (number : ℤ) (hasRound : Bool)
    (lTraceFilesNumberToMaintain : ℤ) : TraceFiles :=
  if number ≥ lTraceFilesNumberToMaintain then
    s.removeOldFile listing (number - lTraceFilesNumberToMaintain + 1)
  else if hasRound then
    s.removeOldFile listing (number + 9999 - lTraceFilesNumberToMaintain + 1)
  else s

/-- `getCurrentTraceFileNumber`: the numbers are written when there are none. -/
def getCurrentTraceFileNumber (s : TraceFiles) : ℤ × Bool := s.info.getD (0, false)

/-- `init`, as far as it concerns the files. -/
def init (c : RetentionConfiguration) (s : TraceFiles) (listing : List FileName) : TraceFiles :=
  let (number, hasRound) := s.getCurrentTraceFileNumber
  let s := { s with info := some (number, hasRound) }
  { s.retire listing number hasRound c.lTraceFilesNumberToMaintain with
    running := true
    fileOpen := false
    lCurrentTraceFileNumber := -1
    bHasFileNumberRound := false }

/-- `getNextTraceFileNumber`: the number after the one in the file. -/
def getNextTraceFileNumber (s : TraceFiles) : ℤ × Bool :=
  let (number, hasRound) := s.getCurrentTraceFileNumber
  if number ≥ maxFileNumber then (1, true) else (number + 1, hasRound)

/-- A new trace file, in a flush. -/
def openTraceFile (s : TraceFiles) (base : FileName) : TraceFiles :=
  let (number, hasRound) := s.getNextTraceFileNumber
  let s := { s with
    info := some (number, hasRound)
    fileOpen := true
    lCurrentTraceFileNumber := number
    bHasFileNumberRound := hasRound
    bLastTraceFilePathName := base ++ tailOfTheFile number }
  s.create s.bLastTraceFilePathName

/-- `gzipAndDeleteCurrentTraceFile`, and whether it succeeds. -/
def gzipAndDeleteCurrentTraceFile (s : TraceFiles) (outcome : GzipOutcome) : TraceFiles × Bool :=
  let bUnCompressedTraceFileName := s.bLastTraceFilePathName
  let s := { s with bLastTraceFilePathName := s.bLastTraceFilePathName ++ ".gz".toList }
  match outcome with
  | .done => ((s.create s.bLastTraceFilePathName).remove bUnCompressedTraceFileName, true)
  | .sourceKept => (s.create s.bLastTraceFilePathName, true)
  | .notCreated => (s, false)
  | .incomplete => (s.create s.bLastTraceFilePathName, false)

/-- The compression of a closed file, if there is one. -/
def compress (c : RetentionConfiguration) (s : TraceFiles) (outcome : GzipOutcome) :
    TraceFiles × Bool :=
  if c.bCompressedTraceFile then s.gzipAndDeleteCurrentTraceFile outcome else (s, true)

/-- The end of a trace file, in a flush: when compressing or copying it fails, the flush returns
before the retention. -/
def closeTraceFile (c : RetentionConfiguration) (s : TraceFiles) (listing : List FileName)
    (outcome : GzipOutcome) (copied : Bool) : TraceFiles :=
  match compress c { s with fileOpen := false } outcome with
  | (s, false) => s
  | (s, true) =>
    if c.bClosedFileToBeCopied ∧ copied = false then s
    else if c.lTraceFilesNumberToMaintain ≠ -1 then
      s.retire listing s.lCurrentTraceFileNumber s.bHasFileNumberRound
        c.lTraceFilesNumberToMaintain
    else s

/-- `finish`: an open file is closed and compressed, without the retention. -/
def finish (c : RetentionConfiguration) (s : TraceFiles) (outcome : GzipOutcome) : TraceFiles :=
  if s.fileOpen then
    { (compress c { s with fileOpen := false } outcome).1 with running := false }
  else { s with running := false }

end TraceFiles

end CatraLibraries
