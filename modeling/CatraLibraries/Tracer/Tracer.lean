/-
# The tracer and its cache

`Tracer/src/Tracer.cpp`: a trace is formatted into a cache of `lCacheSizeOfTraceFile * 1024 + 1`
bytes, and the cache is written to the trace file when the next line has no room in it, when
the time of the file is over, or at an explicit flush.

The length of a line is computed first (`getCompleteTraceLength`) and the line is written
afterwards (`fillCompleteTraceMessage`).  Both count the nesting of the traced functions,
`lFunctionsStackDeep`, a `long` that a function end decrements before its line and a function
begin increments after it.

What the file system answers and the readings of the clock are arguments of the calls, in the
order in which the code asks for them.  The text of a trace is the list of its characters
before the NUL.  The output on the terminal is left out, and the names of the trace files are
in `TraceFiles`.
-/
import CatraLibraries.Lib.Pieces
import CatraLibraries.Lib.Stdio

namespace CatraLibraries

open Memory Stdio

/-- The fields of `tm` that a trace prints, and the milliseconds. -/
structure TraceDateTime where
  tm_year : ℕ
  tm_mon : ℕ
  tm_mday : ℕ
  tm_hour : ℕ
  tm_min : ℕ
  tm_sec : ℕ
  ulMilliSecs : ℕ
  year_lt : tm_year + 1900 < 10000
  mon_lt : tm_mon < 12
  mday_le : tm_mday ≤ 31
  hour_lt : tm_hour < 24
  min_lt : tm_min < 60
  sec_le : tm_sec ≤ 60
  milliSecs_lt : ulMilliSecs < 1000
  deriving DecidableEq

/-- `TraceInfo_t`: one trace; `lUpdateStackDeep` is `+1` for a function begin, `-1` for a
function end and 0 for a plain trace. -/
structure TraceInfo where
  tmDateTime : TraceDateTime
  lTraceLevel : ℤ
  bTraceMessage : List Char
  bFileName : List Char
  lFileLine : ℤ
  ulThreadId : ℕ
  lUpdateStackDeep : ℤ
  deriving DecidableEq

/-- The errors of the modelled calls. -/
inductive TracerError
  | errNoError
  | TRACER_TRACETOOLONG
  | TRACER_TRACER_FLUSHTRACEFILECACHE_FAILED
  deriving DecidableEq

/-- The members of the class `Tracer` that the calls below use; `fileOpen` says that
`iFileDescriptor` is not -1, and `traceText` is what the trace files received so far. -/
structure Tracer where
  pName : List Char
  bTraceFileCacheActive : Bool
  lCacheSizeOfTraceFile : ℕ
  pTraceFileCache : Cells Char
  lCurrentCacheBusyInBytes : ℤ
  lFunctionsStackDeep : ℤ
  bTraceOnFile : Bool
  bTraceOnTTY : Bool
  fileOpen : Bool
  ullCurrentTraceFileSize : ℕ
  ullMaxTraceFileSize : ℕ
  tStartTraceFile : ℤ
  lTraceFilePeriodInSecs : ℤ
  lTraceLevel : ℤ
  lMaxTracesNumber : ℤ
  ptiTraces : List TraceInfo
  lLostTracesNumber : ℕ
  traceText : List Char

namespace Tracer

/-- `pDefaultTraceLevelLabel`. -/
def defaultTraceLevelLabel : List (List Char) :=
  ["DBG1".toList, "DBG2".toList, "DBG3".toList, "DBG4".toList, "DBG5".toList, "DBG6".toList,
    "INFO".toList, "MESG".toList, "WRNG".toList, "ERRR".toList, "FTAL".toList]

/-- `TRACER_MAXTRACELEVES`, the size of the table of labels. -/
def maxTraceLevels : ℤ := 50

/-- The text of `pTraceLevelLabel [lTraceLevel]`; a NULL label counts as no text. -/
def traceLevelLabel (lTraceLevel : ℤ) : List Char :=
  defaultTraceLevelLabel.getD lTraceLevel.toNat []

/-- What `init` is given, apart from the names of the files. -/
structure TracerConfiguration where
  pName : List Char
  lCacheSizeOfTraceFile : ℤ
  ullMaxTraceFileSize : ℕ
  lTraceFilePeriodInSecs : ℤ
  bTraceOnFile : Bool
  bTraceOnTTY : Bool
  lTraceLevel : ℤ
  lMaxTracesNumber : ℤ

/-- `init` at the time `now`; the cache size -1 stands for no cache, and the block has then
`TRACER_DEFAULTCACHESIZEOFTRACEFILE` kilobytes. -/
def init (c : TracerConfiguration) (now : ℤ) : Tracer :=
  let lCacheSizeOfTraceFile := if c.lCacheSizeOfTraceFile = -1 then 50 else c.lCacheSizeOfTraceFile
  { pName := c.pName
    bTraceFileCacheActive := c.lCacheSizeOfTraceFile ≠ -1
    lCacheSizeOfTraceFile := lCacheSizeOfTraceFile.toNat
    pTraceFileCache :=
      some (Char.ofNat 0) :: List.replicate (lCacheSizeOfTraceFile.toNat * 1024) none
    lCurrentCacheBusyInBytes := 0
    lFunctionsStackDeep := 0
    bTraceOnFile := c.bTraceOnFile
    bTraceOnTTY := c.bTraceOnTTY
    fileOpen := false
    ullCurrentTraceFileSize := 0
    ullMaxTraceFileSize := c.ullMaxTraceFileSize
    tStartTraceFile := now
    lTraceFilePeriodInSecs := c.lTraceFilePeriodInSecs
    lTraceLevel := c.lTraceLevel
    lMaxTracesNumber := c.lMaxTracesNumber
    ptiTraces := []
    lLostTracesNumber := 0
    traceText := [] }

/-! ### The line of a trace -/

/-- `"%04lu-%02lu-%02lu"`. -/
def currentDate (d : TraceDateTime) : List Char :=
  printLu 4 (d.tm_year + 1900) ++ '-' :: (printLu 2 (d.tm_mon + 1) ++ '-' :: printLu 2 d.tm_mday)

/-- `"%02lu:%02lu:%02lu.%03lu"`. -/
def currentTime (d : TraceDateTime) : List Char :=
  printLu 2 d.tm_hour ++ ':' :: (printLu 2 d.tm_min ++ ':' :: (printLu 2 d.tm_sec
    ++ '.' :: printLu 3 d.ulMilliSecs))

/-- `"%lu"`. -/
def threadId (t : TraceInfo) : List Char := Nat.toDigits 10 t.ulThreadId

/-- `getCompleteTraceLength`. -/
def getCompleteTraceLength (s : Tracer) (t : TraceInfo) : ℤ :=
  s.lFunctionsStackDeep + (1 + 10 + 1 + 12 + 1 + 1) + (traceLevelLabel t.lTraceLevel).length
    + (1 + 1) + t.bFileName.length + 1 + (printLld t.lFileLine).length + (1 + 1)
    + (s.pName.length + 1) + (threadId t).length + (1 + 1) + t.bTraceMessage.length + 1

/-- What `fillCompleteTraceMessage` copies, piece by piece; the loop that writes the tabs runs
`lFunctionsStackDeep` times, and not at all when that is negative. -/
def completeTracePieces (s : Tracer) (t : TraceInfo) : List (List Char) :=
  [List.replicate s.lFunctionsStackDeep.toNat '\t', ['['], (currentDate t.tmDateTime).take 10,
    ['-'], (currentTime t.tmDateTime).take 12, [']', '['], traceLevelLabel t.lTraceLevel,
    [']', '['], t.bFileName, [' '], printLld t.lFileLine, [']', '['], s.pName, [' '], threadId t,
    [']', '['], t.bTraceMessage, [']']]

/-- The complete line, without its newline. -/
def completeTraceMessage (s : Tracer) (t : TraceInfo) : List Char :=
  (completeTracePieces s t).flatten

/-- `fillCompleteTraceMessage`, from the place `start` of the cache on: the cache, and the
number of characters written before the NUL. -/
def fillCompleteTraceMessage (s : Tracer) (start : ℤ) (t : TraceInfo) :
    Except Fault (Cells Char × ℤ) := do
  let (cache, place) ← writePieces s.pTraceFileCache start (completeTracePieces s t)
  let cache ← storeAt cache place (Char.ofNat 0)
  return (cache, place - start)

/-! ### Writing the cache to the file -/

/-- What one flush meets: room left on the disk, the new trace file opened and when, the cache
written, the time at the end, the file closed, and the closed file compressed and copied. -/
structure FlushIO where
  roomLeft : Bool
  opened : Bool
  openTime : ℤ
  written : Bool
  time : ℤ
  closed : Bool
  rotated : Bool

/-- The text in the cache. -/
def cachedText (s : Tracer) : Cells Char :=
  s.pTraceFileCache.take s.lCurrentCacheBusyInBytes.toNat

/-- The cache emptied. -/
def emptyCache (s : Tracer) : Tracer :=
  { s with
    lCurrentCacheBusyInBytes := 0
    pTraceFileCache := s.pTraceFileCache.set 0 (some (Char.ofNat 0)) }

/-- The cache written to the open file, or dropped when the disk is full. -/
def writeCache (s : Tracer) (roomLeft : Bool) : Tracer :=
  if s.lCurrentCacheBusyInBytes ≠ 0 then
    if roomLeft then
      { s.emptyCache with
        traceText := s.traceText ++ s.cachedText.reduceOption
        ullCurrentTraceFileSize :=
          s.ullCurrentTraceFileSize + s.lCurrentCacheBusyInBytes.toNat }
    else s.emptyCache
  else s

/-- The end of a flush: the file is closed when it is full, when its time is over or when the
disk is full. -/
def closeFile (s : Tracer) (io : FlushIO) : Tracer × TracerError :=
  if s.ullCurrentTraceFileSize ≥ s.ullMaxTraceFileSize * 1024 % 2 ^ 64
      ∨ io.time - s.tStartTraceFile > s.lTraceFilePeriodInSecs ∨ io.roomLeft = false then
    if io.closed then
      ({ s with fileOpen := false, ullCurrentTraceFileSize := 0 },
        if io.rotated then .errNoError else .TRACER_TRACER_FLUSHTRACEFILECACHE_FAILED)
    else (s, .TRACER_TRACER_FLUSHTRACEFILECACHE_FAILED)
  else (s, .errNoError)

/-- The trace file of a flush: the one that is open, or a new one. -/
def openFile (s : Tracer) (io : FlushIO) : Tracer :=
  if s.fileOpen then s else { s with fileOpen := true, tStartTraceFile := io.openTime }

/-- `flushTraceFileCache`. -/
def flushTraceFileCache (s : Tracer) (io : FlushIO) : Tracer × TracerError :=
  if s.bTraceOnFile = false then (s.emptyCache, .errNoError)
  else
    -- a full disk turns the tracing on file off
    let s := { s with bTraceOnFile := io.roomLeft }
    if s.fileOpen = false ∧ io.opened = false then (s, .TRACER_TRACER_FLUSHTRACEFILECACHE_FAILED)
    else if s.lCurrentCacheBusyInBytes ≠ 0 ∧ io.roomLeft ∧ io.written = false then
      (s.openFile io, .TRACER_TRACER_FLUSHTRACEFILECACHE_FAILED)
    else ((s.openFile io).writeCache io.roomLeft).closeFile io

/-! ### Tracing -/

/-- What one trace meets: the flush before it, the time after it, and the flush at the end. -/
structure PerformIO where
  first : FlushIO
  time : ℤ
  last : FlushIO

/-- The nesting when the line is formatted: a function end has left its function. -/
def leaveFunction (s : Tracer) (t : TraceInfo) : Tracer :=
  if t.lUpdateStackDeep < 0 then { s with lFunctionsStackDeep := s.lFunctionsStackDeep - 1 } else s

/-- Room in the cache for a line of `length` characters. -/
def makeRoom (s : Tracer) (length : ℤ) (io : FlushIO) : Tracer × TracerError :=
  if s.lCurrentCacheBusyInBytes + length ≥ s.lCacheSizeOfTraceFile * 1024 then
    s.flushTraceFileCache io
  else (s, .errNoError)

/-- The cache behind a line of `length` characters; a function begin enters its function. -/
def withLine (s : Tracer) (t : TraceInfo) (length : ℤ) (cache : Cells Char) : Tracer :=
  { s with
    pTraceFileCache := cache
    lCurrentCacheBusyInBytes := s.lCurrentCacheBusyInBytes + length
    lFunctionsStackDeep :=
      if t.lUpdateStackDeep > 0 then s.lFunctionsStackDeep + 1 else s.lFunctionsStackDeep }

/-- The line, its newline and the NUL put into the cache. -/
def writeTrace (s : Tracer) (t : TraceInfo) (length : ℤ) : Except Fault Tracer := do
  let (cache, _) ← s.fillCompleteTraceMessage s.lCurrentCacheBusyInBytes t
  let cache ← storeAt cache (s.lCurrentCacheBusyInBytes + length - 1) '\n'
  let cache ← storeAt cache (s.lCurrentCacheBusyInBytes + length) (Char.ofNat 0)
  return s.withLine t length cache

/-- The flush when the time of the trace file is over. -/
def switchFile (s : Tracer) (time : ℤ) (io : FlushIO) : Tracer × TracerError :=
  if time - s.tStartTraceFile > s.lTraceFilePeriodInSecs then s.flushTraceFileCache io
  else (s, .errNoError)

/-- `performTrace`; a level without an entry in the table of labels is outside of it. -/
def performTrace (s : Tracer) (t : TraceInfo) (io : PerformIO) :
    Except Fault (Tracer × TracerError) :=
  if 0 ≤ t.lTraceLevel ∧ t.lTraceLevel < maxTraceLevels then
    let s := s.leaveFunction t
    let lCompleteTraceMessageLength := s.getCompleteTraceLength t + 1
    if s.lCacheSizeOfTraceFile * 1024 < lCompleteTraceMessageLength then
      .ok (s, .TRACER_TRACETOOLONG)
    else
      match s.makeRoom lCompleteTraceMessageLength io.first with
      | (s, .errNoError) => do
        let s ← s.writeTrace t lCompleteTraceMessageLength
        return s.switchFile io.time io.last
      | (s, err) => .ok (s, err)
  else .error .outOfBounds

end Tracer

end CatraLibraries
