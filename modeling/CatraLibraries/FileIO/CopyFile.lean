/-
# Copying and moving a file

`FileIO::copyFile` and `FileIO::moveFile` (`Tools/src/FileIO.cpp`).  A copy opens the source, opens
and truncates the destination, and writes what it reads; where that fails it removes the destination.
A move makes a lock file beside the source, copies, removes the source, and removes the lock file.

Every step that can fail may fail: `Faults` says which one does, and how many bytes each `write` takes.
-/
import CatraLibraries.FileIO.Directories

namespace CatraLibraries

open Posix Effects
open Paths (Name components Stays components_append)

namespace FileIO

/-- The steps that fail though the file system would let them pass.  A `read` or a `write` is told by
the number of bytes before it; a `write` takes one byte and at most `write` more. -/
structure Faults where
  openSrc : Option Errno
  openDest : Option Errno
  read : ℕ → Option Errno
  write : ℕ → Except Errno ℕ
  closeDest : Option Errno
  closeSrc : Option Errno
  removeDest : Option Errno
  openLock : Option Errno
  setLock : Option Errno
  removeSrc : Option Errno
  unLock : Option Errno
  closeLock : Option Errno
  removeLock : Option Errno

/-- No step fails, and each `write` takes all. -/
def Faults.none (ulBytes : ℕ) : Faults where
  openSrc := .none
  openDest := .none
  read _ := .none
  write _ := .ok ulBytes
  closeDest := .none
  closeSrc := .none
  removeDest := .none
  openLock := .none
  setLock := .none
  removeSrc := .none
  unLock := .none
  closeLock := .none
  removeLock := .none

/-- A step that fails or passes. -/
def step (fault : Option Errno) (error : Errno → FileIOError) : Method Unit :=
  match fault with
  | .none => pure ()
  | some errno => throw (error errno)

variable (sys : System)

/-- `remove`, which may fail. -/
def removeOr (fault : Option Errno) (pPathName : List UInt8) : Method Unit := do
  step fault .unlinkFailed
  remove sys pPathName

/-- `open` to read, which may fail. -/
def openSource (fault : Option Errno) (pPathName : List UInt8) : Method ℕ := do
  step fault .openFailed
  look fun fs =>
    match openRead sys fs pPathName with
    | .ok file => .ok file
    | .error errno => .error (.openFailed errno)

/-- `open` to write, which may fail. -/
def openTarget (fault : Option Errno) (truncate : Bool) (pPathName : List UInt8) : Method ℕ := do
  step fault .openFailed
  fun fs =>
    match openWrite sys fs truncate pPathName with
    | .ok (file, fs') => .ok file fs'
    | .error errno => .error (.openFailed errno) fs

/-! ### `copyFile` -/

/-- `getFileSizeInBytes`; a link is not followed. -/
def getFileSizeInBytes (fs : FileSystem) (pPathName : List UInt8) : Except FileIOError ℕ :=
  match lstat sys fs pPathName with
  | .ok (.regular file) => .ok (fs.content file).length
  | .ok (.link target) => .ok target.length
  | .ok .directory => .ok 0
  | .error errno => .error (.lstatFailed errno)

/-- The size of the buffer. -/
def ulLocalBufferSizeToBeUsed (fs : FileSystem) (pSrcPathName : List UInt8)
    (ulBufferSizeToBeUsed : ℕ) : Except FileIOError ℕ :=
  if ulBufferSizeToBeUsed = 0 then
    match getFileSizeInBytes sys fs pSrcPathName with
    | .error e => .error e
    | .ok ulFileSize =>
      .ok (if 30 * 1000 * 1024 ≤ ulFileSize then 30 * 1000 * 1024
        else if 10 * 1000 * 1024 ≤ ulFileSize then 10 * 1000 * 1024
        else if 5 * 1000 * 1024 ≤ ulFileSize then 5 * 1000 * 1024
        else if ulFileSize = 0 then 8
        else ulFileSize)
  else .ok ulBufferSizeToBeUsed

/-- What is behind the last slash; `none` where there is no slash. -/
def behindLastSlash (path : List UInt8) : Option (List UInt8) :=
  if 47 ∈ path then some (path.rtakeWhile (· ≠ 47)) else none

/-- Where `copyFile` writes to: in a directory, the name of the source. -/
def copyDestination (fs : FileSystem) (pSrcPathName pDestPath : List UInt8) :
    Except FileIOError (List UInt8) :=
  match isDirectoryExisting sys fs pDestPath with
  | .error e => .error e
  | .ok false => .ok pDestPath
  | .ok true =>
    match behindLastSlash pSrcPathName with
    | none => .error .wrongSourceFile
    | some pSourceFileName => .ok (slashed pDestPath ++ pSourceFileName)

/-- The inner loop: what was read is written, from the byte `total` of the file on. -/
def writeChunk (write : ℕ → Except Errno ℕ) (file : ℕ) : ℕ → ℕ → List UInt8 → Method Unit
  | 0, _, _ => pure ()
  | rounds + 1, total, chunk =>
    if chunk = [] then pure ()
    else
      match write total with
      | .error errno => throw (.writeFailed errno)
      | .ok more => do
        let llBytesWritten := min (more + 1) chunk.length
        change fun fs => .ok (fs.write file (fs.content file ++ chunk.take llBytesWritten))
        writeChunk write file rounds (total + llBytesWritten) (chunk.drop llBytesWritten)

/-- The outer loop, from the byte `total` of the source on; it ends with a `read` that does not fill
the buffer. -/
def copyBytes (faults : Faults) (src dest ulSize : ℕ) : ℕ → ℕ → Method Unit
  | 0, _ => pure ()
  | rounds + 1, total =>
    match faults.read total with
    | some errno => throw (.readFailed errno)
    | .none => do
      let chunk ← look fun fs => .ok (((fs.content src).drop total).take ulSize)
      if chunk = [] then pure ()
      else do
        writeChunk faults.write dest chunk.length total chunk
        if chunk.length = ulSize then copyBytes faults src dest ulSize rounds (total + chunk.length)
        else pure ()

/-- `copyFile` when both files are open. -/
def copyOpened (faults : Faults) (pDestPathName : List UInt8)
    (iSrcFileDescriptor iDestFileDescriptor ulSize : ℕ) : Method Unit := do
  let rounds ← look fun fs => .ok ((fs.content iSrcFileDescriptor).length + 1)
  onError (copyBytes faults iSrcFileDescriptor iDestFileDescriptor ulSize rounds 0)
    (removeOr sys faults.removeDest pDestPathName)
  onError (step faults.closeDest .closeFailed) (removeOr sys faults.removeDest pDestPathName)
  step faults.closeSrc .closeFailed

/-- `copyFile`. -/
def copyFile (faults : Faults) (pSrcPathName pDestPath : List UInt8) (ulBufferSizeToBeUsed : ℕ) :
    Method Unit := do
  let ulSize ← look fun fs => ulLocalBufferSizeToBeUsed sys fs pSrcPathName ulBufferSizeToBeUsed
  let pDestPathName ← look fun fs => copyDestination sys fs pSrcPathName pDestPath
  let iSrcFileDescriptor ← openSource sys faults.openSrc pSrcPathName
  let iDestFileDescriptor ← openTarget sys faults.openDest true pDestPathName
  copyOpened sys faults pDestPathName iSrcFileDescriptor iDestFileDescriptor ulSize

/-! ### `moveFile` -/

/-- `isFileExisting`, without a time to wait. -/
def isFileExisting (fs : FileSystem) (pPathName : List UInt8) : Except FileIOError Bool :=
  match lstat sys fs pPathName with
  | .error .ENOENT => .ok false
  | .error errno => .error (.lstatFailed errno)
  | .ok .directory => .ok false
  | .ok (.regular _) => .ok true
  | .ok (.link _) =>
    match readLink sys fs pPathName 512 with
    | .error e => .error e
    | .ok pRealPathName =>
      match lstat sys fs pRealPathName with
      | .error .ENOENT => .ok false
      | .error errno => .error (.lstatFailed errno)
      | .ok (.regular _) => .ok true
      | .ok _ => .ok false

/-- Where `moveFile` copies to. -/
def moveDestination (fs : FileSystem) (pSrcPathName pDestPathName : List UInt8) :
    Except FileIOError (List UInt8) :=
  match isDirectoryExisting sys fs pDestPathName with
  | .error e => .error e
  | .ok false => .ok pDestPathName
  | .ok true => .ok (slashed pDestPathName ++ (behindLastSlash pSrcPathName).getD pSrcPathName)

/-- `<source>.lck`. -/
def lockPathName (pSrcPathName : List UInt8) : List UInt8 := pSrcPathName ++ [46, 108, 99, 107]

/-- `lockFile`. -/
def lockFile (faults : Faults) (pLockPathName : List UInt8) : Method Unit := do
  let _ ← openTarget sys faults.openLock false pLockPathName
  step faults.setLock .fcntlFailed

/-- `unLockFile`; where a step fails the lock file is removed too. -/
def unLockFile (faults : Faults) (pLockPathName : List UInt8) : Method Unit := do
  onError (step faults.unLock .fcntlFailed) (removeOr sys faults.removeLock pLockPathName)
  onError (step faults.closeLock .closeFailed) (removeOr sys faults.removeLock pLockPathName)
  removeOr sys faults.removeLock pLockPathName

/-- `moveFile`. -/
def moveFile (faults : Faults) (pSrcPathName pDestPathName : List UInt8) : Method Unit := do
  if ¬(← look fun fs => isFileExisting sys fs pSrcPathName) then
    throw .activationWrong
  let pCompleteDestPathName ← look fun fs => moveDestination sys fs pSrcPathName pDestPathName
  let pLockPathName := lockPathName pSrcPathName
  lockFile sys faults pLockPathName
  onError (copyFile sys faults pSrcPathName pCompleteDestPathName 0)
    (unLockFile sys faults pLockPathName)
  onError (removeOr sys faults.removeSrc pSrcPathName) (unLockFile sys faults pLockPathName)
  unLockFile sys faults pLockPathName

end FileIO

end CatraLibraries
