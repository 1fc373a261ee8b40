/-
# What the buffer is for

The purpose of `Buffer`, stated without storage: between `init` and `finish` it is a
NUL-free string, and each call is an operation on lists of bytes.  `BufferOp.spec`
gives the operation and the error code of each call, `BufferOp.exec` is the call
itself, and `Represents` says when a buffer stands for such a string.
-/
import CatraLibraries.Tools.BufferAppend

namespace CatraLibraries

open Memory CString Substring

/-- The calls, with NUL-free strings where the source takes a `const char *`. -/
inductive BufferOp
  | init (s : CStr) (lBufferBlockNumberOnOverflow : Int)
  | finish (bReuseMemoryFromNextInit : Bool)
  | setBuffer (s : CStr)
  | append (s : CStr)
  | insertAt (lStartIndex : Int) (s : CStr)
  | removeChar (ulIndex : Nat)
  | setChar (ulIndex : Nat) (cNewChar : UInt8)
  | truncateIfBigger (ulMaxLength : Nat)
  | truncateStartingFrom (stStripType : StripType) (cCharToSearch : UInt8)
  | stripString (stStripType : StripType) (pStringToStrip : CStr)
  | stripCount (stStripType : StripType) (ulCharactersNumberToStrip : Nat)
  | substitute (pInitial pFinal : CStr)

/-- A buffer without its storage: not initialized, or a string. -/
abbrev AbsBuffer := Option (List UInt8)

namespace BufferOp

/-- The call on a buffer. -/
def exec (b : Buffer) : BufferOp → Outcome
  | .init s k => b.init (some s.cells) (-1) k
  | .finish reuse => b.finish reuse
  | .setBuffer s => b.setBuffer (some s.cells) (-1)
  | .append s => b.append (some s.cells) (-1)
  | .insertAt i s => b.insertAt i (some s.cells)
  | .removeChar i => b.removeChar i
  | .setChar i c => b.setChar i c
  | .truncateIfBigger n => b.truncateIfBigger n
  | .truncateStartingFrom t c => b.truncateStartingFrom t c
  | .stripString t pat => b.stripString t pat.cells
  | .stripCount t n => b.stripCount t n
  | .substitute pat new => b.substitute (some pat.cells) (some new.cells)

/-- `strip` by a string. -/
def stripSpec (t : StripType) (pat s : List UInt8) : List UInt8 :=
  match t with
  | .leading => stripLeading pat s
  | .trailing => stripTrailing pat s
  | .both => stripTrailing pat (stripLeading pat s)

/-- `strip` by a count. -/
def stripCountSpec (t : StripType) (n : Nat) (s : List UInt8) : List UInt8 :=
  match t with
  | .leading => s.drop n
  | .trailing => s.take (s.length - n)
  | .both => (s.drop n).take (s.length - 2 * n)

/-- `truncateStartingFrom`: the part before the first, or the last, `c`. -/
def truncateSpec (t : StripType) (c : UInt8) (s : List UInt8) : ToolsError × List UInt8 :=
  if t = .both then (.activationWrong, s)
  else if c = 0 then (.activationWrong, s)
  else if c ∉ s then (.bufferCharNotFound, s)
  else if t = .leading then (.errNoError, s.take (s.idxOf c))
  else (.errNoError, s.take (s.length - 1 - s.reverse.idxOf c))

/-- The error code a call returns on a string, and the string after it. -/
def specString (s : List UInt8) : BufferOp → ToolsError × AbsBuffer
  | .init _ k => (if k ≤ 0 then .activationWrong else .operationNotAllowed, some s)
  | .finish _ => (.errNoError, none)
  | .setBuffer t => (.errNoError, some t.bytes)
  | .append t => (.errNoError, some (s ++ t.bytes))
  | .insertAt i t =>
    if i < 0 ∨ i > s.length then (.activationWrong, some s)
    else (.errNoError, some (s.take i.toNat ++ t.bytes ++ s.drop i.toNat))
  | .removeChar i =>
    if i < s.length then (.errNoError, some (s.eraseIdx i)) else (.activationWrong, some s)
  | .setChar i c =>
    if i < s.length then (.errNoError, some (if c = 0 then s.take i else s.set i c))
    else (.activationWrong, some s)
  | .truncateIfBigger n => (.errNoError, some (s.take n))
  | .truncateStartingFrom t c => ((truncateSpec t c s).1, some (truncateSpec t c s).2)
  | .stripString t pat => (.errNoError, some (stripSpec t pat.bytes s))
  | .stripCount t n =>
    if t = .both ∧ s.length < 2 * n then (.activationWrong, some s)
    else (.errNoError, some (stripCountSpec t n s))
  | .substitute pat new => (.errNoError, some (replaceAll pat.bytes new.bytes s))

/-- The same on a buffer that is not initialized. -/
def specIdle : BufferOp → ToolsError × AbsBuffer
  | .init s k => if k ≤ 0 then (.activationWrong, none) else (.errNoError, some s.bytes)
  | .finish _ => (.errNoError, none)
  | .setBuffer t => (.errNoError, some t.bytes)
  | .append t => (.errNoError, some t.bytes)
  | .insertAt i _ => (if i < 0 then .activationWrong else .operationNotAllowed, none)
  | _ => (.operationNotAllowed, none)

/-- The error code a call returns, and the abstract buffer after it. -/
def spec : AbsBuffer → BufferOp → ToolsError × AbsBuffer
  | none, op => op.specIdle
  | some s, op => op.specString s

/-- The calls the specification covers: patterns are not empty, and no more
characters are stripped than there are. -/
def InScope : AbsBuffer → BufferOp → Prop
  | _, .stripString _ pat => pat.bytes ≠ []
  | _, .substitute pat _ => pat.bytes ≠ []
  | a, .stripCount _ n => n ≤ (a.getD []).length
  | _, _ => True

/-- Whether the copies of a substitution survive the narrowing of their lengths to
`unsigned int`: the new string, and what follows the first occurrence when it has to
move, are shorter than 4 GiB; and whether the bytes that it adds are a `long`. -/
def SubstituteFits : AbsBuffer → BufferOp → Prop
  | some s, .substitute pat new =>
    (∀ i, findSub pat.bytes s = some i →
      new.bytes.length < 2 ^ 32 ∧
        (new.bytes.length ≠ pat.bytes.length → s.length - (i + pat.bytes.length) < 2 ^ 32)) ∧
      countSub pat.bytes s * (new.bytes.length - pat.bytes.length) < 2 ^ 63
  | _, _ => True

/-- An error leaves the string as it was. -/
theorem spec_error (a : AbsBuffer) (op : BufferOp) (h : (op.spec a).1 ≠ .errNoError) :
    (op.spec a).2 = a := by
  cases a with
  | none =>
    cases op with
    | init s k =>
      simp only [spec, specIdle] at h ⊢
      split_ifs at h ⊢ <;> simp_all
    | setBuffer t | append t => exact absurd rfl h
    | finish | insertAt | removeChar | setChar | truncateIfBigger | truncateStartingFrom | stripString
      | stripCount | substitute => rfl
  | some s =>
    cases op with
    | truncateStartingFrom t c =>
      simp only [spec, specString, truncateSpec] at h ⊢
      split_ifs at h ⊢ <;> simp_all
    | insertAt i t | removeChar i | setChar i c | stripCount t n =>
      simp only [spec, specString] at h ⊢
      split_ifs at h ⊢ <;> simp_all
    | init | finish | setBuffer | append | truncateIfBigger | stripString | substitute =>
      simp_all [spec, specString]

end BufferOp

/-! ### Runs -/

/-- A sequence of calls on a buffer. -/
def runBuffer (b : Buffer) : List BufferOp → Except Fault Buffer
  | [] => .ok b
  | op :: ops => do
    let (_, b) ← op.exec b
    runBuffer b ops

/-- The abstract buffer after a sequence of calls. -/
def specRun (a : AbsBuffer) : List BufferOp → AbsBuffer
  | [] => a
  | op :: ops => specRun (op.spec a).2 ops

/-- Every call of the sequence is in scope where it is made. -/
def RunInScope (a : AbsBuffer) : List BufferOp → Prop
  | [] => True
  | op :: ops => op.InScope a ∧ RunInScope (op.spec a).2 ops

/-- Every substitution of the sequence fits where it is made. -/
def RunSubstituteFits (a : AbsBuffer) : List BufferOp → Prop
  | [] => True
  | op :: ops => op.SubstituteFits a ∧ RunSubstituteFits (op.spec a).2 ops

/-- The buffer stands for the abstract one.  When it is initialized, the bytes up to
the first NUL of its storage are the string, `ullCharsNumber` counts them, and they
leave room for the NUL. -/
def Represents (b : Buffer) : AbsBuffer → Prop
  | none => b.bsBufferStatus = .builded
  | some s => b.bsBufferStatus = .initialized ∧ cstr b.pBuffer = .ok s ∧
      b.ullCharsNumber = s.length ∧ b.ullCharsNumber < b.capacity ∧
      b.pBuffer.length = b.capacity

end CatraLibraries
