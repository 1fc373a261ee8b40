/-
# A download into the cache

The run of a `CacheSaveHttpGetThread` (`HttpGetThread::run` of `WebTools`, with the `chunkRead` and
`closingHttpGet` of its subclasses): the request, the loop over the body in
`WebUtility::readHttpHeaderAndBody`, and the end.  Every call of the system whose outcome matters to
the files is a step of its own, so that downloads and requests can be interleaved.

The marker `<path>.complete` is made in the callback of the last chunk.  What fails after that, the
close of the marker, the clock or the close of the socket, makes `closingHttpGet` remove the file,
and the marker stays.  A `write` that takes only a part of its chunk is not noticed at all.
-/
import CatraLibraries.Lib.Transition
import Mathlib.Logic.Function.Basic
import Mathlib.Data.List.Basic
import Mathlib.Algebra.GroupWithZero.Nat
import Mathlib.Algebra.Order.BigOperators.Group.List

namespace CatraLibraries

open Transition

namespace CacheSaveHttpGetThread

/-- The regular files, by their names. -/
abbrev Files (κ : Type) := κ → Option (List UInt8)

/-- Where a download is. -/
inductive Phase
  | requesting
  | reading
  | opening (pucBuffer : List UInt8)
  | writing (pucBuffer : List UInt8)
  | touching
  | touched
  | received
  | disconnecting
  | closing (failed : Bool)
  | checking
  | removing
  | finished
  deriving DecidableEq, Repr

/-- The members and variables of a download that its steps use; `iDestFileDescriptor` says whether
the descriptor is open. -/
structure Download where
  phase : Phase
  ulChunkReadIndex : ℕ
  llBufferDataSaved : ℕ
  iDestFileDescriptor : Bool
  deriving DecidableEq, Repr

/-- The outcomes of the calls: `requestFails` is any failure up to the end of the header,
`headerOfGet` a header that reads like one of a GET request, after which no body is read, and
`write (some n)` a `write` that leaves the last `n` bytes of its chunk out. -/
inductive DownloadEvent
  | requestFails
  | header
  | headerOfGet
  | read (ulBufferLength : ℕ)
  | readFails
  | open (ok : Bool)
  | write (unwritten : Option ℕ)
  | touchOpen (ok : Bool)
  | touchClose (ok : Bool)
  | nowLocalInMilliSecs (ok : Bool)
  | finish (ok : Bool)
  | close (ok : Bool)
  | isFileExisting (ok : Bool)
  | remove (ok : Bool)
  deriving DecidableEq, Repr

/-- A download that `init` has prepared. -/
def Download.start : Download where
  phase := .requesting
  ulChunkReadIndex := 0
  llBufferDataSaved := 0
  iDestFileDescriptor := false

/-- The beginning of `closingHttpGet`. -/
def Download.closingHttpGet (failed : Bool) (d : Download) : Download :=
  { d with
    phase :=
      if d.iDestFileDescriptor then .closing failed
      else if failed then .checking else .finished }

/-- The head of the loop over the body. -/
def Download.loop (body : List UInt8) (bContentLengthInitialized : Bool) (d : Download) : Download :=
  { d with
    phase :=
      if bContentLengthInitialized ∧ body.length ≤ d.llBufferDataSaved then .received else .reading }

/-- The beginning of `FileIO::writeBytes`: a chunk without bytes is an error. -/
def Download.writeBytes (pucBuffer : List UInt8) (d : Download) : Download :=
  if pucBuffer = [] then d.closingHttpGet true else { d with phase := .writing pucBuffer }

/-- The end of `chunkRead` after a chunk was written. -/
def Download.saved (body : List UInt8) (bContentLengthInitialized : Bool) (pucBuffer : List UInt8)
    (d : Download) : Download :=
  let d := { d with llBufferDataSaved := d.llBufferDataSaved + pucBuffer.length }
  if bContentLengthInitialized ∧ d.llBufferDataSaved = body.length then
    { d with phase := .touching }
  else d.loop body bContentLengthInitialized

variable {κ : Type} [DecidableEq κ]

/-- One step of a download of `body`, with the file `data` and the marker `marker`.  The file that is
open has no other writer. -/
def step (body : List UInt8) (bContentLengthInitialized : Bool) (data marker : κ)
    (s : Download × Files κ) (event : DownloadEvent) : Option (Download × Files κ) :=
  let (d, files) := s
  match d.phase with
  | .requesting =>
    match event with
    | .requestFails => some (d.closingHttpGet true, files)
    | .header => some (d.loop body bContentLengthInitialized, files)
    | .headerOfGet => some ({ d with phase := .received }, files)
    | _ => none
  | .reading =>
    match event with
    | .readFails => some (d.closingHttpGet true, files)
    | .read ulBufferLength =>
      if d.llBufferDataSaved + ulBufferLength ≤ body.length then
        let pucBuffer := (body.drop d.llBufferDataSaved).take ulBufferLength
        let d' := { d with ulChunkReadIndex := d.ulChunkReadIndex + 1 }
        if d.ulChunkReadIndex = 0 then some ({ d' with phase := .opening pucBuffer }, files)
        else some (d'.writeBytes pucBuffer, files)
      else none
    | _ => none
  | .opening pucBuffer =>
    match event with
    | .open true =>
      some ({ d with iDestFileDescriptor := true }.writeBytes pucBuffer,
        Function.update files data (some []))
    | .open false => some (d.closingHttpGet true, files)
    | _ => none
  | .writing pucBuffer =>
    match event with
    | .write none => some (d.closingHttpGet true, files)
    | .write (some unwritten) =>
      if unwritten ≤ pucBuffer.length then
        some (d.saved body bContentLengthInitialized pucBuffer,
          Function.update files data
            ((files data).map (· ++ pucBuffer.take (pucBuffer.length - unwritten))))
      else none
    | _ => none
  | .touching =>
    match event with
    | .touchOpen true =>
      some ({ d with phase := .touched },
        Function.update files marker (some ((files marker).getD [])))
    | .touchOpen false => some (d.closingHttpGet true, files)
    | _ => none
  | .touched =>
    match event with
    | .touchClose true => some (d.loop body bContentLengthInitialized, files)
    | .touchClose false => some (d.closingHttpGet true, files)
    | _ => none
  | .received =>
    match event with
    | .nowLocalInMilliSecs true => some ({ d with phase := .disconnecting }, files)
    | .nowLocalInMilliSecs false => some (d.closingHttpGet true, files)
    | _ => none
  | .disconnecting =>
    match event with
    | .finish true => some (d.closingHttpGet false, files)
    | .finish false => some (d.closingHttpGet true, files)
    | _ => none
  | .closing failed =>
    match event with
    | .close true =>
      some ({ d with
        iDestFileDescriptor := false
        phase := if failed then .checking else .finished }, files)
    | .close false => some ({ d with phase := .finished }, files)
    | _ => none
  | .checking =>
    match event with
    | .isFileExisting true =>
      some ({ d with phase := if (files data).isSome then .removing else .finished }, files)
    | .isFileExisting false => some ({ d with phase := .finished }, files)
    | _ => none
  | .removing =>
    match event with
    | .remove true => some ({ d with phase := .finished }, Function.update files data none)
    | .remove false => some ({ d with phase := .finished }, files)
    | _ => none
  | .finished => none

/-! ### What happened in a download -/

/-- The download ends with an error. -/
def DownloadEvent.fails : DownloadEvent → Bool
  | .requestFails | .readFails | .read 0 | .open false | .write none | .touchOpen false
  | .touchClose false | .nowLocalInMilliSecs false | .finish false => true
  | _ => false

/-- The file stays when an error should have removed it. -/
def DownloadEvent.keeps : DownloadEvent → Bool
  | .close false | .isFileExisting false | .remove false => true
  | _ => false

/-- A `write` that leaves bytes out. -/
def DownloadEvent.short : DownloadEvent → Bool
  | .write (some (_ + 1)) => true
  | _ => false

def DownloadEvent.bytes : DownloadEvent → ℕ
  | .read ulBufferLength => ulBufferLength
  | _ => 0

/-- The bytes of the body that were read. -/
def bytesRead (events : List DownloadEvent) : ℕ := (events.map DownloadEvent.bytes).sum

/-- The whole body was read and written. -/
def SavesBody (body : List UInt8) (events : List DownloadEvent) : Prop :=
  bytesRead events = body.length ∧ .write none ∉ events ∧ events.any DownloadEvent.short = false

end CacheSaveHttpGetThread

end CatraLibraries
