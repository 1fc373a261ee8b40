/-
# The cached file reader

`Tools/src/FileReader.cpp`: a file opened for reading, with a cache of at most
`ulMaxCacheSize` bytes in front of it.  The cache is described by the file offset of
its first byte (`(unsigned long long) -1` before the first refill) and by the nominal
`ulCacheSize`; how many bytes a refill really delivered is not kept.

`FileIO::seek` and `FileIO::readBytes` succeed here: a read returns the bytes asked
for, or those that exist before the end of the file.  All offsets are `unsigned long
long`, so every sum and difference is taken modulo 2⁶⁴ (`ull`).  A successful call
yields what it writes through its pointers; `int` is 32 bits wide and `unsigned long` 64.
-/
import CatraLibraries.Tools.ToolsErrors
import Mathlib.Data.BitVec

namespace CatraLibraries

open Memory

/-- `FileReaderStatus_t`. -/
inductive FileReaderStatus
  | builded | initialized
  deriving DecidableEq, Repr

/-- The values of `iWhence`; the `switch` of `seek` ignores any other. -/
inductive Whence
  | seekSet | seekCur | seekEnd | other
  deriving DecidableEq, Repr

/-- An open file: what it contains and where the next read starts.  `lseek` reports
positions as `long long`, so no file is larger. -/
structure FileDescriptor where
  contents : List UInt8
  position : Nat
  length_lt : contents.length < 2 ^ 63
  deriving DecidableEq

namespace FileDescriptor

/-- `FileIO::seek` with `SEEK_SET`. -/
def seek (fd : FileDescriptor) (llBytes : Nat) : FileDescriptor :=
  { fd with position := llBytes }

/-- The bytes that a read of `ullBytesNumber` returns. -/
def available (fd : FileDescriptor) (ullBytesNumber : Nat) : List UInt8 :=
  (fd.contents.drop fd.position).take ullBytesNumber

/-- `FileIO::readBytes`: the bytes are written to the front of `pucValue`. -/
def readBytes (fd : FileDescriptor) (pucValue : Cells UInt8) (ullBytesNumber : Nat) :
    Except Fault (Cells UInt8 × FileDescriptor) := do
  let pucValue ← writeAt pucValue 0 ((fd.available ullBytesNumber).map some)
  return (pucValue, { fd with position := fd.position + (fd.available ullBytesNumber).length })

end FileDescriptor

/-- The value of an integer as an `unsigned long long`. -/
def ull (z : Int) : Nat := (z % 2 ^ 64).toNat

/-- The members of the class `FileReader`. -/
structure FileReader where
  frFileReaderStatus : FileReaderStatus
  iFileDescriptor : FileDescriptor
  pFilePath : Option String
  pucCache : Cells UInt8
  ulCacheSize : Nat
  ullCurrentFileOffset : Nat
  ullCacheFileOffset : Nat
  ullFileSize : Nat
  deriving DecidableEq

namespace FileReader

/-- `TOOLS_FILEREADER_MINIMUMCACHESIZE`. -/
def minimumCacheSize : Nat := 256

/-- How a call ends: with what it returns, or an error code, and the reader it leaves. -/
abbrev Outcome (α : Type) := Except ToolsError α × FileReader

/-- The constructor; the members it leaves unset are not read before `init`. -/
def built : FileReader := ⟨.builded, ⟨[], 0, by decide⟩, none, [], 0, 0, 0, 0⟩

/-! ### Opening and closing -/

/-- `init`; `openFile` is `FileIO::open` with `O_RDONLY`, and a NULL path is `none`. -/
def init (openFile : String → Except ToolsError FileDescriptor) (pFilePath : Option String)
    (ulMaxCacheSize : Nat) (r : FileReader) : Except Fault (Outcome Unit) :=
  match pFilePath with
  | none => .ok (.error .activationWrong, r)
  | some path =>
    if ulMaxCacheSize ≤ minimumCacheSize then .ok (.error .activationWrong, r)
    else if r.frFileReaderStatus ≠ .builded then .ok (.error .operationNotAllowed, r)
    else
      let r := { r with
        pFilePath := some path
        ulCacheSize := ulMaxCacheSize
        ullCurrentFileOffset := 0
        ullCacheFileOffset := ull (-1) }
      match openFile path with
      | .error err => .ok (.error err, { r with pFilePath := none })
      | .ok fd => do
        -- the size is where a seek to the end arrives
        let fd := fd.seek fd.contents.length
        let ullFileSize := fd.position
        let ulCacheSize := if r.ulCacheSize > ullFileSize then ullFileSize else r.ulCacheSize
        -- `new unsigned char [(unsigned int) _ulCacheSize]`
        let pucCache ← alloc (2 ^ 63 - 1) (ulCacheSize % 2 ^ 32)
        return (.ok (), { r with
          frFileReaderStatus := .initialized
          iFileDescriptor := fd
          pucCache := pucCache
          ulCacheSize := ulCacheSize
          ullFileSize := ullFileSize })

/-- `finish`. -/
def finish (r : FileReader) : Except Fault (Outcome Unit) :=
  if r.frFileReaderStatus ≠ .initialized then .ok (.ok (), r)
  else .ok (.ok (), { r with
    pucCache := []
    pFilePath := none
    frFileReaderStatus := .builded })

/-! ### Moving the offset -/

/-- The offset that `seek` sets in a file of `ullFileSize > 0` bytes. -/
def seekOffset (ullFileSize ullCurrentFileOffset : Nat) (llBytes : Int64) :
    Whence → Except Fault Nat
  | .seekSet =>
    if llBytes.toInt ≤ 0 then .ok 0
    else if ull llBytes.toInt ≥ ullFileSize then .ok ullFileSize
    else .ok (ull llBytes.toInt)
  | .seekCur =>
    if ull (ullCurrentFileOffset + llBytes.toInt) ≥ ullFileSize then .ok ullFileSize
    else if ullCurrentFileOffset + llBytes.toInt < 0 then .ok 0
    else .ok (ull (ullCurrentFileOffset + llBytes.toInt))
  | .seekEnd =>
    if llBytes.toInt ≥ 0 then .ok ullFileSize
    else if llBytes.toInt = -2 ^ 63 then .error .undefinedArithmetic -- `llBytes * -1`
    else if ull (-llBytes.toInt) ≥ ullFileSize then .ok 0
    else .ok (ull (ullFileSize + llBytes.toInt))
  | .other => .ok ullCurrentFileOffset

/-- `seek`; it returns the new position. -/
def seek (llBytes : Int64) (iWhence : Whence) (r : FileReader) : Except Fault (Outcome Nat) :=
  if r.frFileReaderStatus ≠ .initialized then .ok (.error .operationNotAllowed, r)
  else if r.ullFileSize = 0 then .ok (.ok r.ullCurrentFileOffset, r)
  else do
    let offset ← seekOffset r.ullFileSize r.ullCurrentFileOffset llBytes iWhence
    return (.ok offset, { r with ullCurrentFileOffset := offset })

/-! ### The cache -/

/-- The condition under which `refreshCacheIfNecessary` refills the cache: it was never
filled, or the offset lies before it or behind it, or the read runs over its end. -/
def NeedsRefresh (ullBytesToRead : Nat) (r : FileReader) : Prop :=
  r.ullCacheFileOffset = ull (-1) ∨
  r.ullCurrentFileOffset < r.ullCacheFileOffset ∨
  r.ullCurrentFileOffset > ull (r.ullCacheFileOffset + r.ulCacheSize) ∨
  ull ((r.ullCurrentFileOffset : Int) - r.ullCacheFileOffset + ullBytesToRead) > r.ulCacheSize

instance (n : Nat) (r : FileReader) : Decidable (NeedsRefresh n r) :=
  inferInstanceAs (Decidable (_ ∨ _))

/-- `ullBytesToReadForCache`. -/
def bytesToReadForCache (r : FileReader) : Nat :=
  if r.ullCacheFileOffset = ull (-1) then
    if r.ullFileSize > r.ulCacheSize then r.ulCacheSize else r.ullFileSize
  else if r.ullCurrentFileOffset < r.ullCacheFileOffset then r.ulCacheSize
  else if ull ((r.ullFileSize : Int) - r.ullCurrentFileOffset) > r.ulCacheSize then r.ulCacheSize
  else ull ((r.ullFileSize : Int) - r.ullCurrentFileOffset)

/-- `refreshCacheIfNecessary`. -/
def refreshCacheIfNecessary (ullBytesToRead : Nat) (r : FileReader) :
    Except Fault (Outcome Unit) :=
  if NeedsRefresh ullBytesToRead r then
    if ullBytesToRead > r.ulCacheSize then .ok (.error .fileReaderCacheSizeTooLow, r)
    else do
      let (pucCache, fd) ← (r.iFileDescriptor.seek r.ullCurrentFileOffset).readBytes
        r.pucCache r.bytesToReadForCache
      return (.ok (), { r with
        iFileDescriptor := fd
        pucCache := pucCache
        ullCacheFileOffset := r.ullCurrentFileOffset })
  else .ok (.ok (), r)

/-- `readMoreThanCache`; it returns the caller's buffer. -/
def readMoreThanCache (pucBuffer : Cells UInt8) (ullBytesToRead : Nat) (r : FileReader) :
    Except Fault (Outcome (Cells UInt8)) := do
  let (pucBuffer, fd) ← (r.iFileDescriptor.seek r.ullCurrentFileOffset).readBytes
    pucBuffer ullBytesToRead
  return (.ok pucBuffer, { r with iFileDescriptor := fd })

/-- The `memcpy` of `n` bytes at the offset out of the cache. -/
def copyFromCache (dst : Cells UInt8) (n : Nat) (r : FileReader) :
    Except Fault (Cells UInt8) :=
  memcpy dst 0 (r.pucCache.drop (ull ((r.ullCurrentFileOffset : Int) - r.ullCacheFileOffset))) n

/-- The reader after `n` bytes more. -/
def advance (n : Nat) (r : FileReader) : FileReader :=
  { r with ullCurrentFileOffset := ull (r.ullCurrentFileOffset + n) }

/-! ### Reading -/

/-- How many bytes a read that asks for `n` delivers. -/
def bytesRead (n : Nat) (bErrorIfAllBytesNotAvailable : Bool) (r : FileReader) :
    Except ToolsError Nat :=
  if ull (r.ullCurrentFileOffset + n) > r.ullFileSize then
    if bErrorIfAllBytesNotAvailable then .error .activationWrong
    else if ull ((r.ullFileSize : Int) - r.ullCurrentFileOffset) ≤ 0 then
      .error .fileReaderReachedEndOfFile
    else .ok (ull ((r.ullFileSize : Int) - r.ullCurrentFileOffset))
  else .ok n

/-- The common text of `readChars` and `readBytes`; it returns the number of bytes read
and the caller's buffer. -/
def readBlock (pBuffer : Cells UInt8) (n : Nat) (bErrorIfAllBytesNotAvailable : Bool)
    (r : FileReader) : Except Fault (Outcome (Nat × Cells UInt8)) :=
  if r.frFileReaderStatus ≠ .initialized then .ok (.error .operationNotAllowed, r)
  else
    match r.bytesRead n bErrorIfAllBytesNotAvailable with
    | .error err => .ok (.error err, r)
    | .ok count =>
      if count > r.ulCacheSize then do
        match ← r.readMoreThanCache pBuffer count with
        | (.error err, r) => return (.error err, r)
        | (.ok pBuffer, r) => return (.ok (count, pBuffer), r.advance count)
      else do
        match ← r.refreshCacheIfNecessary count with
        | (.error err, r) => return (.error err, r)
        | (.ok (), r) =>
          let pBuffer ← r.copyFromCache pBuffer count
          return (.ok (count, pBuffer), r.advance count)

/-- `readChars`. -/
def readChars (pBuffer : Cells UInt8) (ullCharsNumber : Nat)
    (bErrorIfAllBytesNotAvailable : Bool) (r : FileReader) :
    Except Fault (Outcome (Nat × Cells UInt8)) :=
  r.readBlock pBuffer ullCharsNumber bErrorIfAllBytesNotAvailable

/-- `readBytes`. -/
def readBytes (pucValue : Cells UInt8) (ullBytesNumber : Nat)
    (bErrorIfAllBytesNotAvailable : Bool) (r : FileReader) :
    Except Fault (Outcome (Nat × Cells UInt8)) :=
  r.readBlock pucValue ullBytesNumber bErrorIfAllBytesNotAvailable

/-! ### Integers in network order -/

/-- `x << s` on `int`; the bits shifted out are lost. -/
def shiftInt (x : BitVec 32) (s : Nat) : Except Fault (BitVec 32) :=
  if s < 32 then .ok (x <<< s) else .error .undefinedArithmetic

/-- The `int` that the bytes give when each is shifted by its place and all are or-ed. -/
def orShifted : List Nat → Cells UInt8 → Except Fault (BitVec 32)
  | [], _ => .ok 0
  | s :: shifts, pucValue => do
    let byte ← load pucValue 0
    let high ← shiftInt (byte.toBitVec.setWidth 32) s
    let low ← orShifted shifts (pucValue.drop 1)
    return high ||| low

/-- The common text of the `readNetUnsignedInt*`: one byte for each of the `shifts`, and
the `int` they give converted to the unsigned 64-bit result. -/
def readNetUnsignedInt (shifts : List Nat) (r : FileReader) : Except Fault (Outcome Nat) :=
  if r.frFileReaderStatus ≠ .initialized then .ok (.error .operationNotAllowed, r)
  else if ull (r.ullCurrentFileOffset + shifts.length) > r.ullFileSize then
    .ok (.error .activationWrong, r)
  else do
    match ← r.refreshCacheIfNecessary shifts.length with
    | (.error err, r) => return (.error err, r)
    | (.ok (), r) =>
      let pucValue ← r.copyFromCache (List.replicate shifts.length none) shifts.length
      let value ← orShifted shifts pucValue
      return (.ok (value.signExtend 64).toNat, r.advance shifts.length)

/-- `readNetUnsignedInt8Bit`. -/
def readNetUnsignedInt8Bit (r : FileReader) : Except Fault (Outcome Nat) :=
  r.readNetUnsignedInt [0]

/-- `readNetUnsignedInt16Bit`. -/
def readNetUnsignedInt16Bit (r : FileReader) : Except Fault (Outcome Nat) :=
  r.readNetUnsignedInt [8, 0]

/-- `readNetUnsignedInt24Bit`. -/
def readNetUnsignedInt24Bit (r : FileReader) : Except Fault (Outcome Nat) :=
  r.readNetUnsignedInt [16, 8, 0]

/-- `readNetUnsignedInt32Bit`. -/
def readNetUnsignedInt32Bit (r : FileReader) : Except Fault (Outcome Nat) :=
  r.readNetUnsignedInt [24, 16, 8, 0]

/-- `readNetUnsignedInt64Bit`; its bytes are shifted as `int` too. -/
def readNetUnsignedInt64Bit (r : FileReader) : Except Fault (Outcome Nat) :=
  r.readNetUnsignedInt [56, 48, 40, 32, 24, 16, 8, 0]

/-! ### Calls -/

/-- A call of the public interface, with the caller's buffer where it takes one. -/
inductive Call
  | seek (llBytes : Int64) (iWhence : Whence)
  | readChars (pBuffer : Cells UInt8) (ullCharsNumber : Nat) (bErrorIfAllBytesNotAvailable : Bool)
  | readBytes (pucValue : Cells UInt8) (ullBytesNumber : Nat)
      (bErrorIfAllBytesNotAvailable : Bool)
  | readNetUnsignedInt8Bit
  | readNetUnsignedInt16Bit
  | readNetUnsignedInt24Bit
  | readNetUnsignedInt32Bit
  | readNetUnsignedInt64Bit

/-- What a successful call hands back. -/
inductive Answer
  | position (llCurrentPosition : Nat)
  | block (bytesRead : Nat) (pBuffer : Cells UInt8)
  | value (ulValue : Nat)
  deriving DecidableEq

/-- Turn what a call returns into an answer. -/
def answering {α : Type} (f : α → Answer) (o : Except Fault (Outcome α)) :
    Except Fault (Outcome Answer) := do
  let (result, r) ← o
  return (result.map f, r)

/-- Perform one call. -/
def exec : Call → FileReader → Except Fault (Outcome Answer)
  | .seek llBytes iWhence, r => answering .position (r.seek llBytes iWhence)
  | .readChars pBuffer n all, r => answering (fun a => .block a.1 a.2) (r.readChars pBuffer n all)
  | .readBytes pucValue n all, r => answering (fun a => .block a.1 a.2) (r.readBytes pucValue n all)
  | .readNetUnsignedInt8Bit, r => answering .value r.readNetUnsignedInt8Bit
  | .readNetUnsignedInt16Bit, r => answering .value r.readNetUnsignedInt16Bit
  | .readNetUnsignedInt24Bit, r => answering .value r.readNetUnsignedInt24Bit
  | .readNetUnsignedInt32Bit, r => answering .value r.readNetUnsignedInt32Bit
  | .readNetUnsignedInt64Bit, r => answering .value r.readNetUnsignedInt64Bit

/-- Perform the calls one after the other. -/
def run : List Call → FileReader → Except Fault (List (Except ToolsError Answer) × FileReader)
  | [], r => .ok ([], r)
  | c :: calls, r => do
    let (a, r) ← r.exec c
    let (as, r) ← run calls r
    return (a :: as, r)

end FileReader

end CatraLibraries
