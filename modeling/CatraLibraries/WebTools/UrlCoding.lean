/-
# Encoding and decoding of URLs

`WebTools/src/WebUtility.cpp`, `encodeURL` and `decodeURL`.  The encoder copies letters,
digits and six other characters, writes a blank in one of its two spellings and everything
else as `%` and two hexadecimal digits; `char` is signed, so a byte from 128 on is printed
sign-extended to eight digits first and cut down to its last two.  The decoder copies up to
the next `%`, reads two digits, and at the end turns every `+` into a blank.

The decoder writes either into a `Buffer` or into an array of the caller.
-/
import CatraLibraries.Lib.Percent
import CatraLibraries.Tools.BufferRun

namespace CatraLibraries

open Memory CString Percent

/-- The codes that `encodeURL` and `decodeURL` return, with the parameters of the errors of
`WebToolsErrors.h`. -/
inductive UrlError
  | errNoError
  | activationWrong
  | bufferSetBufferFailed
  | bufferAppendFailed
  | bufferSubstituteFailed
  | bufferTooShort (ulBufferLength ulNeeded : Nat)
  | wrongFormatForUrlToBeDecoded (pURL : List UInt8)
  deriving DecidableEq, Repr

namespace WebUtility

/-- `(unsigned long) -1`: no truncation. -/
def noTruncation : Nat := 2 ^ 64 - 1

/-- The block of a string and its NUL. -/
def literal (s : List UInt8) : Cells UInt8 := s.map some ++ [some 0]

/-! ### encodeURL -/

/-- The characters that are copied. -/
def isValid (c : UInt8) : Bool :=
  isalnum c || c == 46 || c == 45 || c == 47 || c == 92 || c == 95 || c == 58

/-- A `char` as an argument of `printf`: the `unsigned int` of the sign-extended value. -/
def signExtend (c : UInt8) : Nat := c.toInt8.toInt32.toUInt32.toNat

/-- `sprintf (pEncodedChar, "%%%02X", c)`, in the array of 64 bytes. -/
def printEncodedChar (c : UInt8) : Except Fault (Cells UInt8) :=
  writeAt (List.replicate 64 none) 0 (literal (percent :: printX 2 (signExtend c)))

/-- `"%FFFFFF"`, what the sign extension leaves in front of the two digits. -/
def signExtension : List UInt8 := [37, 70, 70, 70, 70, 70, 70]

/-- The repair of a sign-extended character: the loop moves the digits down behind the `%`. -/
def repairEncodedChar (pEncodedChar : Cells UInt8) : Except Fault (Cells UInt8) := do
  let n ← strlen pEncodedChar
  if n > 7 then
    if ← strncmp pEncodedChar signExtension then
      let pEncodedChar ← copyDown pEncodedChar 1 7 (n - 7)
      store pEncodedChar (n - 6) 0
    else return pEncodedChar
  else return pEncodedChar

/-- What one turn of the loop appends, and how much it counts for the truncation. -/
def encodedChar (c : UInt8) (bAsciiInCaseOfSpace : Bool) : Except Fault (Cells UInt8 × Nat) := do
  if isValid c then return (literal [c], 1)
  else if c = 32 then
    return (if bAsciiInCaseOfSpace then literal [37, 50, 48] else literal [43], 1)
  else
    let pEncodedChar ← printEncodedChar c
    let pEncodedChar ← repairEncodedChar pEncodedChar
    return (pEncodedChar, 3)

/-- The loop over the characters from `ulURLIndex` on, as many as the first argument says. -/
def encodeLoop (pURL : Cells UInt8) (ulTruncateEncodedValueIfBiggerThen : Nat)
    (bAsciiInCaseOfSpace : Bool) : Nat → Nat → Buffer → Except Fault (UrlError × Buffer)
  | 0, _, pbEncodedURL => .ok (.errNoError, pbEncodedURL)
  | n + 1, ulURLIndex, pbEncodedURL => do
    let c ← load pURL ulURLIndex
    let (pEncodedChar, room) ← encodedChar c bAsciiInCaseOfSpace
    if ulTruncateEncodedValueIfBiggerThen ≠ noTruncation ∧
        (pbEncodedURL.length + room) % 2 ^ 64 > ulTruncateEncodedValueIfBiggerThen then
      return (.errNoError, pbEncodedURL)
    else
      let (err, pbEncodedURL) ← pbEncodedURL.append (some pEncodedChar) (-1)
      if err ≠ .errNoError then return (.bufferAppendFailed, pbEncodedURL)
      else
        encodeLoop pURL ulTruncateEncodedValueIfBiggerThen bAsciiInCaseOfSpace n
          (ulURLIndex + 1) pbEncodedURL

/-- `encodeURL (pURL, pbEncodedURL, ulTruncateEncodedValueIfBiggerThen, bAsciiInCaseOfSpace)`. -/
def encodeURL (pURL : Option (Cells UInt8)) (pbEncodedURL : Option Buffer)
    (ulTruncateEncodedValueIfBiggerThen : Nat) (bAsciiInCaseOfSpace : Bool) :
    Except Fault (UrlError × Option Buffer) :=
  match pURL, pbEncodedURL with
  | some pURL, some pbEncodedURL => do
    let (err, pbEncodedURL) ← pbEncodedURL.setBuffer (some [some 0]) (-1)
    if err ≠ .errNoError then return (.bufferSetBufferFailed, pbEncodedURL)
    else
      let ulURLLength ← strlen pURL
      let (err, pbEncodedURL) ← encodeLoop pURL ulTruncateEncodedValueIfBiggerThen
        bAsciiInCaseOfSpace ulURLLength 0 pbEncodedURL
      return (err, pbEncodedURL)
  | _, pbEncodedURL => .ok (.activationWrong, pbEncodedURL)

/-! ### decodeURL -/

/-- Where the decoder writes: `pbDecodedURL`, or `pDecodedURL` with its
`ulDecodedURLBufferLength`. -/
inductive Decoded
  | buffer (pbDecodedURL : Buffer)
  | array (pDecodedURL : Cells UInt8) (ulDecodedURLBufferLength : Nat)
  deriving DecidableEq

/-- The room left in the array, `ulDecodedURLBufferLength - strlen (pDecodedURL)`. -/
def roomLeft (ulDecodedURLBufferLength n : Nat) : Nat :=
  (ulDecodedURLBufferLength + (2 ^ 64 - n)) % 2 ^ 64

/-- The output is emptied. -/
def Decoded.clear : Decoded → Except Fault (UrlError × Decoded)
  | .buffer pbDecodedURL => do
    let (err, pbDecodedURL) ← pbDecodedURL.setBuffer (some [some 0]) (-1)
    return (if err ≠ .errNoError then .bufferSetBufferFailed else .errNoError,
      .buffer pbDecodedURL)
  | .array pDecodedURL ulDecodedURLBufferLength => do
    let pDecodedURL ←
      writeAt pDecodedURL 0 (List.replicate ulDecodedURLBufferLength (some 0))
    return (.errNoError, .array pDecodedURL ulDecodedURLBufferLength)

/-- The first `n` bytes of a string are appended. -/
def Decoded.appendBytes (src : Cells UInt8) (n : Nat) :
    Decoded → Except Fault (UrlError × Decoded)
  | .buffer pbDecodedURL => do
    let (err, pbDecodedURL) ← pbDecodedURL.append (some src) n
    return (if err ≠ .errNoError then .bufferAppendFailed else .errNoError, .buffer pbDecodedURL)
  | .array pDecodedURL ulDecodedURLBufferLength => do
    let lCurrentDecodedLength ← strlen pDecodedURL
    if n ≥ roomLeft ulDecodedURLBufferLength lCurrentDecodedLength then
      return (.bufferTooShort ulDecodedURLBufferLength n,
        .array pDecodedURL ulDecodedURLBufferLength)
    else
      let pDecodedURL ← strncat pDecodedURL src n
      let pDecodedURL ← store pDecodedURL (lCurrentDecodedLength + n) 0
      return (.errNoError, .array pDecodedURL ulDecodedURLBufferLength)

/-- A whole string is appended. -/
def Decoded.appendString (src : Cells UInt8) : Decoded → Except Fault (UrlError × Decoded)
  | .buffer pbDecodedURL => do
    let (err, pbDecodedURL) ← pbDecodedURL.append (some src) (-1)
    return (if err ≠ .errNoError then .bufferAppendFailed else .errNoError, .buffer pbDecodedURL)
  | .array pDecodedURL ulDecodedURLBufferLength => do
    let n ← strlen src
    let lCurrentDecodedLength ← strlen pDecodedURL
    if n ≥ roomLeft ulDecodedURLBufferLength lCurrentDecodedLength then
      return (.bufferTooShort ulDecodedURLBufferLength n,
        .array pDecodedURL ulDecodedURLBufferLength)
    else
      let pDecodedURL ← strcat pDecodedURL src
      return (.errNoError, .array pDecodedURL ulDecodedURLBufferLength)

/-- The loop `while ((pPlusChar = strchr (pPlusChar, '+')) != NULL) *pPlusChar = ' '`. -/
def replacePlusLoop : Nat → Cells UInt8 → Nat → Except Fault (Cells UInt8)
  | 0, _, _ => .error .outOfFuel
  | fuel + 1, pDecodedURL, pPlusChar => do
    match ← strchr (pDecodedURL.drop pPlusChar) 43 with
    | none => return pDecodedURL
    | some i =>
      let pDecodedURL ← store pDecodedURL (pPlusChar + i) 32
      replacePlusLoop fuel pDecodedURL (pPlusChar + i)

/-- Every `+` of the output becomes a blank. -/
def Decoded.replacePlus : Decoded → Except Fault (UrlError × Decoded)
  | .buffer pbDecodedURL => do
    let (err, pbDecodedURL) ← pbDecodedURL.substitute (some (literal [43])) (some (literal [32]))
    return (if err ≠ .errNoError then .bufferSubstituteFailed else .errNoError,
      .buffer pbDecodedURL)
  | .array pDecodedURL ulDecodedURLBufferLength => do
    let pDecodedURL ← replacePlusLoop (pDecodedURL.length + 1) pDecodedURL 0
    return (.errNoError, .array pDecodedURL ulDecodedURLBufferLength)

/-- The character that the two digits behind a `%` stand for, if there are two. -/
def decodedChar (pEncodedChar : Cells UInt8) : Except Fault (Option UInt8) := do
  if (← strlen pEncodedChar) ≥ 2 then
    let x ← load pEncodedChar 1
    if isxdigit x then
      let y ← load pEncodedChar 2
      if isxdigit y then return some (UInt8.ofNat (scanLX [x, y])) else return none
    else return none
  else return none

/-- The loop over the `%`, from `pRemainingURLToDecode` on. -/
def decodeLoop (pURL : Cells UInt8) :
    Nat → Nat → Decoded → Except Fault (UrlError × Decoded)
  | 0, _, _ => .error .outOfFuel
  | fuel + 1, pRemainingURLToDecode, out => do
    let remaining := pURL.drop pRemainingURLToDecode
    match ← strchr remaining percent with
    | none => out.appendString remaining
    | some n =>
      let (err, out) ← out.appendBytes remaining n
      if err ≠ .errNoError then return (err, out)
      else
        match ← decodedChar (remaining.drop n) with
        | none => return (.wrongFormatForUrlToBeDecoded (← cstr pURL), out)
        | some c =>
          let (err, out) ← out.appendString (literal [c])
          if err ≠ .errNoError then return (err, out)
          else decodeLoop pURL fuel (pRemainingURLToDecode + n + 3) out

/-- `decodeURL (pURL, pDecodedURL, ulDecodedURLBufferLength, pbDecodedURL)`; the parameters
that receive the result are one. -/
def decodeURL (pURL : Option (Cells UInt8)) (out : Option Decoded) :
    Except Fault (UrlError × Option Decoded) :=
  match pURL, out with
  | some pURL, some out => do
    let (err, out) ← out.clear
    if err ≠ .errNoError then return (err, out)
    else
      let (err, out) ← decodeLoop pURL (pURL.length + 1) 0 out
      if err ≠ .errNoError then return (err, out)
      else
        -- In case there was a '+', it was not touched by the decode
        let (err, out) ← out.replacePlus
        return (err, out)
  | _, out => .ok (.activationWrong, out)

end WebUtility

end CatraLibraries
