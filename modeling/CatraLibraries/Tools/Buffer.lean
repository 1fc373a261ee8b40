/-
# The growing string buffer

`Tools/src/Buffer.cpp`: a NUL-terminated string in a block of
`lBufferBlockNumber * lBufferBlockNumberOnOverflow` bytes, with its length kept
beside it in `ullCharsNumber`.  The buffer grows by whole blocks; the need to grow
is decided from `strlen` of the storage, while an append copies to
`ullCharsNumber`.  `finish` may keep the storage for the next `init`.

Every function is translated statement by statement: a pointer is the block it
points into, a call returns the error code and the buffer after it, and a `Fault`
is what the C++ has no defined behaviour for (or `new` throwing).  `long` is 64 bits
wide and `unsigned int` 32.
-/
import CatraLibraries.Lib.CString
import CatraLibraries.Tools.ToolsErrors
import Mathlib.Algebra.Group.Nat.Defs

namespace CatraLibraries

open Memory CString

/-- `BufferStatus_t`. -/
inductive BufferStatus
  | builded | initialized
  deriving DecidableEq, Repr

/-- `StripType_t`. -/
inductive StripType
  | leading | trailing | both
  deriving DecidableEq, Repr

/-- The members of the class `Buffer`; the NULL storage is the empty block. -/
structure Buffer where
  bsBufferStatus : BufferStatus
  bMemoryAllocated : Bool
  lBufferBlockNumber : Nat
  lBufferBlockNumberOnOverflow : Nat
  ullCharsNumber : Nat
  pBuffer : Cells UInt8
  deriving DecidableEq

/-- How a call ends: with an error code and the buffer it leaves, or not at all. -/
abbrev Outcome := Except Fault (ToolsError × Buffer)

/-- `TOOLS_DEFAULTBUFFERBLOCKNUMBERONOVERFLOW`. -/
def defaultBufferBlockNumberOnOverflow : Int := 2

/-- The largest array `new` can return: `PTRDIFF_MAX` bytes. -/
def maxAllocation : Nat := 2 ^ 63 - 1

namespace Buffer

/-- The constructor; the members it leaves unset are not read before `init`. -/
def built : Buffer := ⟨.builded, false, 0, 0, 0, []⟩

/-- Bytes of storage. -/
def capacity (b : Buffer) : Nat := b.lBufferBlockNumber * b.lBufferBlockNumberOnOverflow

/-! ### Storage -/

/-- The `do … while` loop: the next block number whose storage exceeds `need` bytes. -/
def growBlockNumber (size need : Nat) : Nat → Nat → Except Fault Nat
  | 0, _ => .error .outOfFuel
  | fuel + 1, lLocalBufferBlockNumber =>
    if need ≥ (lLocalBufferBlockNumber + 1) * size then
      growBlockNumber size need fuel (lLocalBufferBlockNumber + 1)
    else .ok (lLocalBufferBlockNumber + 1)

/-- New storage of more than `need` bytes that holds the string of the old one. -/
def reallocate (b : Buffer) (need : Nat) : Except Fault Buffer := do
  let lLocalBufferBlockNumber ←
    growBlockNumber b.lBufferBlockNumberOnOverflow need (need + 1) b.lBufferBlockNumber
  let pLocalStringBuffer ←
    alloc maxAllocation (lLocalBufferBlockNumber * b.lBufferBlockNumberOnOverflow)
  let pLocalStringBuffer ←
    strcpy pLocalStringBuffer 0 (if b.lBufferBlockNumber ≠ 0 then b.pBuffer else [some 0])
  return { b with
    pBuffer := pLocalStringBuffer
    lBufferBlockNumber := lLocalBufferBlockNumber
    bMemoryAllocated := true }

/-- `allocMemoryBlockForBufferIfNecessary`; `new` throws and never returns NULL, so
the call has no error code of its own. -/
def allocMemoryBlockForBufferIfNecessary (b : Buffer) (ullBufferLengthToInsert : Nat) :
    Except Fault Buffer := do
  let lBufferLength ← if b.lBufferBlockNumber ≠ 0 then strlen b.pBuffer else .ok 0
  if b.lBufferBlockNumber = 0 ∨
      lBufferLength + ullBufferLengthToInsert + 1
        ≥ b.lBufferBlockNumber * b.lBufferBlockNumberOnOverflow then
    b.reallocate (lBufferLength + ullBufferLengthToInsert)
  else return b

/-- No storage, and blocks of the given size from now on. -/
def withoutStorage (b : Buffer) (lBufferBlockNumberOnOverflow : Nat) : Buffer :=
  { b with
    lBufferBlockNumber := 0
    lBufferBlockNumberOnOverflow := lBufferBlockNumberOnOverflow
    pBuffer := [] }

/-- The first half of `init`: the storage a former `finish` has kept is emptied when
its block size is the one asked for, and given back otherwise. -/
def reuseMemory (b : Buffer) (lBufferBlockNumberOnOverflow : Nat) : Except Fault Buffer :=
  if !b.bMemoryAllocated then .ok (b.withoutStorage lBufferBlockNumberOnOverflow)
  else if b.lBufferBlockNumberOnOverflow ≠ lBufferBlockNumberOnOverflow then
    .ok (b.withoutStorage lBufferBlockNumberOnOverflow)
  else if b.lBufferBlockNumber * b.lBufferBlockNumberOnOverflow > 0 then do
    let pBuffer ← store b.pBuffer 0 0
    return { b with pBuffer := pBuffer }
  else .ok (b.withoutStorage lBufferBlockNumberOnOverflow)

/-- `init (pBuffer, llBufferLength, lBufferBlockNumberOnOverflow)`. -/
def init (b : Buffer) (pBuffer : Option (Cells UInt8)) (llBufferLength : Int)
    (lBufferBlockNumberOnOverflow : Int) : Outcome :=
  match pBuffer with
  | none => .ok (.activationWrong, b)
  | some src =>
    if (llBufferLength < 0 ∧ llBufferLength ≠ -1) ∨ lBufferBlockNumberOnOverflow ≤ 0 then
      .ok (.activationWrong, b)
    else if b.bsBufferStatus ≠ .builded then .ok (.operationNotAllowed, b)
    else do
      let b ← b.reuseMemory lBufferBlockNumberOnOverflow.toNat
      if llBufferLength = -1 then
        let ulBufferLength ← strlen src
        let b ← b.allocMemoryBlockForBufferIfNecessary ulBufferLength
        let mem ← strcpy b.pBuffer 0 src
        return (.errNoError, { b with
          pBuffer := mem, ullCharsNumber := ulBufferLength, bsBufferStatus := .initialized })
      else
        let len := llBufferLength.toNat
        let b ← b.allocMemoryBlockForBufferIfNecessary len
        let mem ←
          if len ≠ 0 then do
            let mem ← strncpy b.pBuffer 0 src len
            store mem len 0
          else .ok b.pBuffer
        return (.errNoError, { b with
          pBuffer := mem, ullCharsNumber := len, bsBufferStatus := .initialized })

/-- The call `init ("")` of the functions that find the buffer not initialized. -/
def initEmpty (b : Buffer) : Outcome :=
  b.init (some [some 0]) (-1) defaultBufferBlockNumberOnOverflow

/-- `finish (bReuseMemoryFromNextInit)`. -/
def finish (b : Buffer) (bReuseMemoryFromNextInit : Bool) : Outcome :=
  if b.bsBufferStatus ≠ .initialized then .ok (.errNoError, b)
  else if !bReuseMemoryFromNextInit ∧ b.lBufferBlockNumber ≠ 0 then
    .ok (.errNoError, { b with
      pBuffer := [], lBufferBlockNumber := 0, bMemoryAllocated := false,
      bsBufferStatus := .builded })
  else .ok (.errNoError, { b with bsBufferStatus := .builded })

/-- `length ()`, and the conversions to `long` and `unsigned long`. -/
def length (b : Buffer) : Nat :=
  if b.bsBufferStatus ≠ .initialized then 2 ^ 64 - 1
  else if b.lBufferBlockNumber = 0 then 0
  else b.ullCharsNumber

/-! ### Adding bytes -/

/-- The end of `append`: room for `n` more bytes, then the copy and the NUL. -/
def appendBytes (b : Buffer) (src : Cells UInt8) (n : Nat) : Outcome := do
  let b ← b.allocMemoryBlockForBufferIfNecessary n
  let mem ← memcpy b.pBuffer b.ullCharsNumber src n
  let mem ← store mem (b.ullCharsNumber + n) 0
  return (.errNoError, { b with pBuffer := mem, ullCharsNumber := b.ullCharsNumber + n })

/-- `append (pBuffer, lBufferLength)`. -/
def append (b : Buffer) (pBuffer : Option (Cells UInt8)) (lBufferLength : Int) : Outcome :=
  match pBuffer with
  | none => .ok (.activationWrong, b)
  | some src =>
    if lBufferLength < 0 ∧ lBufferLength ≠ -1 then .ok (.activationWrong, b)
    else do
      let (err, b) ← if b.bsBufferStatus = .builded then b.initEmpty else .ok (.errNoError, b)
      if err ≠ .errNoError then return (.bufferInitFailed, b)
      else if lBufferLength = -1 then
        let ulBufferLength ← strlen src
        b.appendBytes src ulBufferLength
      else b.appendBytes src lBufferLength.toNat

/-- `setBuffer (pBuffer, lBufferLength)`. -/
def setBuffer (b : Buffer) (pBuffer : Option (Cells UInt8)) (lBufferLength : Int) : Outcome :=
  match pBuffer with
  | none => .ok (.activationWrong, b)
  | some src =>
    if lBufferLength < 0 ∧ lBufferLength ≠ -1 then .ok (.activationWrong, b)
    else do
      let (err, b) ← if b.bsBufferStatus = .builded then b.initEmpty else .ok (.errNoError, b)
      if err ≠ .errNoError then return (.bufferInitFailed, b)
      else
        let mem ← if b.lBufferBlockNumber ≠ 0 then strcpy b.pBuffer 0 [some 0] else .ok b.pBuffer
        let b := { b with pBuffer := mem }
        if lBufferLength = -1 then
          let n ← strlen src
          let b ← b.allocMemoryBlockForBufferIfNecessary n
          let mem ← strcpy b.pBuffer 0 src
          return (.errNoError, { b with pBuffer := mem, ullCharsNumber := n })
        else
          let n := lBufferLength.toNat
          let b ← b.allocMemoryBlockForBufferIfNecessary n
          let mem ← strncpy b.pBuffer 0 src n
          let mem ← store mem n 0
          return (.errNoError, { b with pBuffer := mem, ullCharsNumber := n })

/-- `insertAt (lStartIndex, pBuffer)`. -/
def insertAt (b : Buffer) (lStartIndex : Int) (pBuffer : Option (Cells UInt8)) : Outcome :=
  match pBuffer with
  | none => .ok (.activationWrong, b)
  | some src =>
    if lStartIndex < 0 then .ok (.activationWrong, b)
    else if b.bsBufferStatus = .builded then .ok (.operationNotAllowed, b)
    else if lStartIndex > b.length then .ok (.activationWrong, b)
    else if lStartIndex = b.length then do
      let (err, b) ← b.append (some src) (-1)
      if err ≠ .errNoError then return (.bufferAppendFailed, b) else return (.errNoError, b)
    else do
      let i := lStartIndex.toNat
      let n ← strlen (b.pBuffer.drop i)
      let pRemainingBuffer ← alloc maxAllocation (n + 1)
      let pRemainingBuffer ← strcpy pRemainingBuffer 0 (b.pBuffer.drop i)
      let mem ← store b.pBuffer i 0
      let (err, b) ← append { b with pBuffer := mem, ullCharsNumber := i } (some src) (-1)
      if err ≠ .errNoError then return (.bufferAppendFailed, b)
      else
        let (err, b) ← b.append (some pRemainingBuffer) (-1)
        if err ≠ .errNoError then return (.bufferAppendFailed, b) else return (.errNoError, b)

/-! ### Changing and removing bytes -/

/-- `setChar (ulIndex, cNewChar)`. -/
def setChar (b : Buffer) (ulIndex : Nat) (cNewChar : UInt8) : Outcome :=
  if b.bsBufferStatus = .builded then .ok (.operationNotAllowed, b)
  else if ulIndex ≥ b.length then .ok (.activationWrong, b)
  else do
    let mem ← store b.pBuffer ulIndex cNewChar
    if cNewChar = 0 then
      return (.errNoError, { b with pBuffer := mem, ullCharsNumber := ulIndex })
    else return (.errNoError, { b with pBuffer := mem })

/-- `removeChar (ulIndex)`. -/
def removeChar (b : Buffer) (ulIndex : Nat) : Outcome :=
  if b.bsBufferStatus = .builded then .ok (.operationNotAllowed, b)
  else if ulIndex ≥ b.length then .ok (.activationWrong, b)
  else do
    let mem ← copyDown b.pBuffer ulIndex (ulIndex + 1) (b.ullCharsNumber - ulIndex)
    return (.errNoError, { b with pBuffer := mem, ullCharsNumber := b.ullCharsNumber - 1 })

/-- `truncateIfBigger (ulMaxLength)`. -/
def truncateIfBigger (b : Buffer) (ulMaxLength : Nat) : Outcome :=
  if b.bsBufferStatus ≠ .initialized then .ok (.operationNotAllowed, b)
  else if b.ullCharsNumber > ulMaxLength then b.setChar ulMaxLength 0
  else .ok (.errNoError, b)

/-- `truncateStartingFrom (stStripType, cCharToSearch)`. -/
def truncateStartingFrom (b : Buffer) (stStripType : StripType) (cCharToSearch : UInt8) :
    Outcome :=
  if b.bsBufferStatus ≠ .initialized then .ok (.operationNotAllowed, b)
  else do
    match stStripType with
    | .both => return (.activationWrong, b)
    | .leading =>
      match ← strchr b.pBuffer cCharToSearch with
      | none => return (.bufferCharNotFound, b)
      | some pCharPosition => b.setChar pCharPosition 0
    | .trailing =>
      match ← strrchr b.pBuffer cCharToSearch with
      | none => return (.bufferCharNotFound, b)
      | some pCharPosition => b.setChar pCharPosition 0

/-- The loop of `strip` that steps over copies of the string from the front. -/
def stripLeadingLoop (mem : Cells UInt8) (pat : List UInt8) (ulBufferLength : Nat) :
    Nat → Nat → Except Fault Nat
  | 0, _ => .error .outOfFuel
  | fuel + 1, lBufferIndex =>
    if lBufferIndex < ulBufferLength then do
      if ulBufferLength - lBufferIndex < pat.length then return lBufferIndex
      else if ← strncmp (mem.drop lBufferIndex) pat then
        stripLeadingLoop mem pat ulBufferLength fuel (lBufferIndex + pat.length)
      else return lBufferIndex
    else .ok lBufferIndex

/-- The loop of `strip` that steps over copies of the string from the back; the
index is signed and may end below zero. -/
def stripTrailingLoop (mem : Cells UInt8) (pat : List UInt8) : Nat → Int → Except Fault Int
  | 0, _ => .error .outOfFuel
  | fuel + 1, lBufferIndex =>
    if lBufferIndex ≥ 0 then do
      if ← strncmp (mem.drop lBufferIndex.toNat) pat then
        stripTrailingLoop mem pat fuel (lBufferIndex - pat.length)
      else return lBufferIndex
    else .ok lBufferIndex

/-- The leading part of `strip (stStripType, pStringToStrip)`. -/
def stripLeadingString (b : Buffer) (pat : List UInt8) : Except Fault Buffer := do
  let ulBufferLength := b.length
  let lBufferIndex ← stripLeadingLoop b.pBuffer pat ulBufferLength (ulBufferLength + 1) 0
  if lBufferIndex ≠ 0 then
    let mem ← copyDown b.pBuffer 0 lBufferIndex (ulBufferLength - lBufferIndex)
    let mem ← store mem (ulBufferLength - lBufferIndex) 0
    return { b with pBuffer := mem, ullCharsNumber := ulBufferLength - lBufferIndex }
  else return b

/-- The trailing part of `strip (stStripType, pStringToStrip)`. -/
def stripTrailingString (b : Buffer) (pat : List UInt8) : Except Fault Buffer := do
  let start : Int := (b.length : Int) - pat.length
  let lBufferIndex ← stripTrailingLoop b.pBuffer pat (b.length + 1) start
  if lBufferIndex ≠ start then
    let newLength := (lBufferIndex + pat.length).toNat
    let mem ← store b.pBuffer newLength 0
    return { b with pBuffer := mem, ullCharsNumber := newLength }
  else return b

/-- `strip (stStripType, pStringToStrip)`. -/
def stripString (b : Buffer) (stStripType : StripType) (pStringToStrip : Cells UInt8) :
    Outcome :=
  if b.bsBufferStatus ≠ .initialized then .ok (.operationNotAllowed, b)
  else do
    let pat ← cstr pStringToStrip
    let b ← if stStripType ≠ .trailing then b.stripLeadingString pat else .ok b
    let b ← if stStripType ≠ .leading then b.stripTrailingString pat else .ok b
    return (.errNoError, b)

/-- `l - n` in `unsigned long`. -/
def unsignedLongSub (l n : Nat) : Nat := (l + 2 ^ 64 - n) % 2 ^ 64

/-- The leading part of `strip (stStripType, ulCharactersNumberToStrip)`; the loop compares its signed
index as an unsigned number. -/
def stripLeadingCount (b : Buffer) (ulCharactersNumberToStrip : Nat) : Except Fault Buffer := do
  let mem ← copyDown b.pBuffer 0 ulCharactersNumberToStrip
    (b.ullCharsNumber - ulCharactersNumberToStrip)
  let mem ← store mem (unsignedLongSub b.ullCharsNumber ulCharactersNumberToStrip) 0
  return { b with
    pBuffer := mem
    ullCharsNumber := unsignedLongSub b.ullCharsNumber ulCharactersNumberToStrip }

/-- The trailing part of `strip (stStripType, ulCharactersNumberToStrip)`. -/
def stripTrailingCount (b : Buffer) (ulCharactersNumberToStrip : Nat) : Except Fault Buffer := do
  let mem ← store b.pBuffer (unsignedLongSub b.ullCharsNumber ulCharactersNumberToStrip) 0
  return { b with
    pBuffer := mem
    ullCharsNumber := unsignedLongSub b.ullCharsNumber ulCharactersNumberToStrip }

/-- `strip (stStripType, ulCharactersNumberToStrip)`; the doubling is modulo 2⁶⁴. -/
def stripCount (b : Buffer) (stStripType : StripType) (ulCharactersNumberToStrip : Nat) :
    Outcome :=
  if b.bsBufferStatus ≠ .initialized then .ok (.operationNotAllowed, b)
  else if (stStripType = .both ∧ ulCharactersNumberToStrip * 2 % 2 ^ 64 > b.ullCharsNumber) ∨
      (stStripType ≠ .both ∧ ulCharactersNumberToStrip > b.ullCharsNumber) then
    .ok (.activationWrong, b)
  else
    (if stStripType ≠ .trailing then b.stripLeadingCount ulCharactersNumberToStrip else .ok b)
      >>= fun b =>
    (if stStripType ≠ .leading then b.stripTrailingCount ulCharactersNumberToStrip else .ok b)
      >>= fun b => .ok (.errNoError, b)

/-! ### Substitution -/

/-- The first loop of `substitute`: how often `pInitial` occurs from `pos` on. -/
def countSubstitutions (mem : Cells UInt8) (pInitial : List UInt8) :
    Nat → Nat → Except Fault Nat
  | 0, _ => .error .outOfFuel
  | fuel + 1, pos => do
    match ← strstr (mem.drop pos) pInitial with
    | none => return 0
    | some i => return (← countSubstitutions mem pInitial fuel (pos + i + pInitial.length)) + 1

/-- `(unsigned int) l`, for the length arguments of `strncpy`. -/
def unsignedInt (l : Nat) : Nat := l % 2 ^ 32

/-- One turn of the second loop of `substitute`: the occurrence of `pInitial` at
`next` becomes `pFinal`.  The copy lengths are narrowed to `unsigned int`. -/
def substituteAt (mem : Cells UInt8) (pInitial : List UInt8) (pFinal : Cells UInt8)
    (lFinalLength : Nat) (sameLength : Bool) (next : Nat) : Except Fault (Cells UInt8) :=
  if sameLength then strncpy mem next pFinal (unsignedInt lFinalLength)
  else do
    let pStringToCopy ← cstr (mem.drop (next + pInitial.length))
    let lTmpLength := pStringToCopy.length
    let mem ← strncpy mem (next + lFinalLength) (pStringToCopy.map some ++ [some 0])
      (unsignedInt lTmpLength)
    let mem ← store mem (next + lFinalLength + lTmpLength) 0
    strncpy mem next pFinal (unsignedInt lFinalLength)

/-- The second loop of `substitute`. -/
def substituteLoop (pInitial : List UInt8) (pFinal : Cells UInt8) (lFinalLength : Nat)
    (sameLength : Bool) : Nat → Cells UInt8 → Nat → Except Fault (Cells UInt8)
  | 0, _, _ => .error .outOfFuel
  | fuel + 1, mem, pos => do
    match ← strstr (mem.drop pos) pInitial with
    | none => return mem
    | some i =>
      let mem ← substituteAt mem pInitial pFinal lFinalLength sameLength (pos + i)
      substituteLoop pInitial pFinal lFinalLength sameLength fuel mem (pos + i + lFinalLength)

/-- `substitute (pInitial, pFinal)`. -/
def substitute (b : Buffer) (pInitial pFinal : Option (Cells UInt8)) : Outcome :=
  match pInitial, pFinal with
  | some pInitial, some pFinal =>
    if b.bsBufferStatus ≠ .initialized then .ok (.operationNotAllowed, b)
    else if b.lBufferBlockNumber = 0 then .ok (.errNoError, b)
    else do
      let lFinalLength ← strlen pFinal
      let initial ← cstr pInitial
      let lSubstitutionNumber ←
        countSubstitutions b.pBuffer initial (b.pBuffer.length + 1) 0
      if lSubstitutionNumber = 0 then return (.errNoError, b)
      else
        let lDifferentMemoryAfterSubstitution ←
          long (((lFinalLength : Int) - initial.length) * lSubstitutionNumber)
        let b ←
          if lDifferentMemoryAfterSubstitution > 0 then
            b.allocMemoryBlockForBufferIfNecessary lDifferentMemoryAfterSubstitution.toNat
          else .ok b
        let mem ← substituteLoop initial pFinal lFinalLength
          (lDifferentMemoryAfterSubstitution = 0) (b.pBuffer.length + 1) b.pBuffer 0
        return (.errNoError, { b with
          pBuffer := mem
          ullCharsNumber := (b.ullCharsNumber + lDifferentMemoryAfterSubstitution).toNat })
  | _, _ => .ok (.activationWrong, b)

end Buffer

end CatraLibraries
