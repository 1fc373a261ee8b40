/-
# Directories

The functions of `FileIO` (`Tools/src/FileIO.cpp`) that look at one directory, and `removeDirectory`.
A path is a string that grows by a slash and a name; what it leads to is found again at each call.

`removeDirectory` with `bRemoveRecursively` empties a directory while it scans it.  It removes what is
below the directory and nothing else, whatever the links there point to.  This rests on the path: it
must lead to the directory without what is below, and not end in ".", and a path of an entry must not
be too long.
-/
import CatraLibraries.Lib.Effects
import CatraLibraries.Lib.FileTree

namespace CatraLibraries

open Posix Effects
open Paths (Name components Stays components_append)

namespace FileIO

/-- The errors that the methods return, with the `errno` of the call. -/
inductive FileIOError
  | lstatFailed (errno : Errno)
  | readlinkFailed (errno : Errno)
  | bufferTooSmall
  | opendirFailed (errno : Errno)
  | unlinkFailed (errno : Errno)
  | rmdirFailed (errno : Errno)
  | mkdirFailed (errno : Errno)
  | symlinkFailed (errno : Errno)
  | openFailed (errno : Errno)
  | readFailed (errno : Errno)
  | writeFailed (errno : Errno)
  | closeFailed (errno : Errno)
  | fcntlFailed (errno : Errno)
  | directoryNotExisting
  | createDirectoryFailed
  | wrongSourceFile
  | activationWrong
  /-- the recursion goes deeper than the number of calls that are followed -/
  | unfinished
  deriving DecidableEq, Repr

/-- `getUserData`: the `errno` that is kept in the error. -/
def FileIOError.getUserData : FileIOError → Option Errno
  | .lstatFailed errno | .readlinkFailed errno | .opendirFailed errno | .unlinkFailed errno
  | .mkdirFailed errno | .symlinkFailed errno => some errno
  | _ => none

/-- A method of `FileIO`. -/
abbrev Method := EStateM FileIOError FileSystem

/-- `DirectoryEntryType`, without the kinds of entries that the file system does not have here. -/
inductive DirectoryEntryType
  | regularFile
  | directory
  | linkFile
  deriving DecidableEq, Repr

/-- The type of an entry. -/
def entryType : Entry → DirectoryEntryType
  | .directory => .directory
  | .regular _ => .regularFile
  | .link _ => .linkFile

/-- A `Directory` that is open: its path, and the names that `readdir` delivers. -/
structure Directory where
  pPathName : List UInt8
  names : List Name
  deriving DecidableEq, Repr

variable (sys : System)

/-- `getDirectoryEntryType`. -/
def getDirectoryEntryType (fs : FileSystem) (pPathName : List UInt8) :
    Except FileIOError DirectoryEntryType :=
  match lstat sys fs pPathName with
  | .ok e => .ok (entryType e)
  | .error errno => .error (.lstatFailed errno)

/-- `readLink`: the text of a link; a relative one gets the directory of the link in front. -/
def readLink (fs : FileSystem) (pLinkPathName : List UInt8) (ulRealPathNameLength : ℕ) :
    Except FileIOError (List UInt8) :=
  match readlink sys fs pLinkPathName ulRealPathNameLength with
  | .error errno => .error (.readlinkFailed errno)
  | .ok pRealPathName =>
    if ulRealPathNameLength ≤ pRealPathName.length then .error .bufferTooSmall
    else if pRealPathName.head? = some 47 then .ok pRealPathName
    else
      let pDirectory := pLinkPathName.rdropWhile (· ≠ 47)
      if pDirectory ≠ [] ∧ ulRealPathNameLength ≤ pRealPathName.length + pDirectory.length then
        .error .bufferTooSmall
      else .ok (pDirectory ++ pRealPathName)

/-- `opendir` in `openDirectory`. -/
def openAt (fs : FileSystem) (pPathName pRealPathName : List UInt8) : Except FileIOError Directory :=
  match opendir sys fs pRealPathName with
  | .ok names => .ok ⟨pPathName, names⟩
  | .error errno => .error (.opendirFailed errno)

/-- A path without the slash at its end. -/
def unslashed (path : List UInt8) : List UInt8 :=
  if path.getLast? = some 47 then path.dropLast else path

/-- `openDirectory`: one slash at the end is taken away, and a link is read. -/
def openDirectory (fs : FileSystem) (pDirectoryPathName : List UInt8) :
    Except FileIOError Directory :=
  let pPathName := unslashed pDirectoryPathName
  match getDirectoryEntryType sys fs pPathName with
  | .error e => .error e
  | .ok .linkFile =>
    match readLink sys fs pPathName 512 with
    | .error e => .error e
    | .ok pRealPathName => openAt sys fs pPathName pRealPathName
  | .ok _ => openAt sys fs pPathName pPathName

/-- `isDirectoryExisting`, without a time to wait.  An error that keeps no `errno` leaves `iErrno` as
it is. -/
def isDirectoryExisting (fs : FileSystem) (pDirectoryPathName : List UInt8) :
    Except FileIOError Bool :=
  match openDirectory sys fs pDirectoryPathName with
  | .ok _ => .ok true
  | .error errDir =>
    let iErrno := errDir.getUserData.getD sys.indeterminate
    if iErrno = .ENOENT ∨ iErrno = .ENOTDIR then .ok false else .error errDir

/-- One round of the loop in `readDirectory`: the entry of a name; `none` for "." and ".." and for an
entry that is not there any more. -/
def readEntry (fs : FileSystem) (dDirectory : Directory) (name : Name) :
    Except FileIOError (Option DirectoryEntryType) :=
  if name = [46] ∨ name = [46, 46] then .ok none
  else
    match getDirectoryEntryType sys fs (dDirectory.pPathName ++ [47] ++ name) with
    | .ok detDirectoryEntryType => .ok (some detDirectoryEntryType)
    | .error (.lstatFailed .ENOENT) => .ok none
    | .error e => .error e

/-- The loop over the entries of a directory: `while (readDirectory (…) == errNoError)`. -/
def forEntries (dDirectory : Directory) (body : Name → DirectoryEntryType → Method Unit) :
    List Name → Method Unit
  | [] => pure ()
  | name :: names => do
    match ← look fun fs => readEntry sys fs dDirectory name with
    | some detDirectoryEntryType => body name detDirectoryEntryType
    | none => pure ()
    forEntries dDirectory body names

/-- `remove`. -/
def remove (pPathName : List UInt8) : Method Unit :=
  change fun fs =>
    match unlink sys fs pPathName with
    | .ok fs' => .ok fs'
    | .error errno => .error (.unlinkFailed errno)

/-- The end of `removeDirectory`. -/
def rmdirDirectory (pPathName : List UInt8) : Method Unit :=
  change fun fs =>
    match rmdir sys fs pPathName with
    | .ok fs' => .ok fs'
    | .error errno => .error (.rmdirFailed errno)

/-- What `removeDirectory` does with an entry; `removeSubdirectory` is the recursive call. -/
def removeEntry (removeSubdirectory : List UInt8 → Method Unit) (bDirectoryPathName : List UInt8)
    (bDirectoryEntry : Name) : DirectoryEntryType → Method Unit
  | .regularFile => remove sys (bDirectoryPathName ++ bDirectoryEntry)
  | .linkFile => remove sys (bDirectoryPathName ++ bDirectoryEntry)
  | .directory => removeSubdirectory (bDirectoryPathName ++ bDirectoryEntry)

/-- `removeDirectory`; the number bounds the depth of the recursion. -/
def removeDirectory : ℕ → List UInt8 → Bool → Method Unit
  | 0, _, _ => throw .unfinished
  | _ + 1, pPathName, false => rmdirDirectory sys pPathName
  | depth + 1, pPathName, true => do
    let bDirectoryPathName := slashed pPathName
    if ¬(← look fun fs => isDirectoryExisting sys fs bDirectoryPathName) then
      throw .directoryNotExisting
    let dDirectory ← look fun fs => openDirectory sys fs bDirectoryPathName
    forEntries sys dDirectory
      (removeEntry sys (fun pPathName => removeDirectory depth pPathName true) bDirectoryPathName)
      dDirectory.names
    rmdirDirectory sys pPathName

end FileIO

end CatraLibraries
