/-
# The text of an error

`ErrMsgBase::buildMessage` (`ErrMsg/src/ErrMsgBase.cpp`), in the build without `ERRMSGBASE_FAST`.  A
header with the class, the code and the place comes first, then the predefined message, whose
directives are replaced by the arguments.  The string grows in blocks of 32 bytes.

The scanner counts percent signs, and takes a directive for text when the count is above the number
of arguments.  A "%%" is counted too, so behind one of them a message runs out of arguments too early:
`buildMessage_right_iff` says that the last directives, as many as there are "%%" in front of them,
stay as they are written.
-/
import CatraLibraries.Lib.CString
import CatraLibraries.Lib.Stdio

namespace CatraLibraries

open Memory CString

namespace ErrMsg

/-! ### The code -/

/-- `ERRMSGBASE_BLOCKLENGTH`. -/
def blockLength : ℕ := 32

/-- `ERRMSGBASE_MAXLONGLENGTH`. -/
def maxLongLength : ℕ := 32 + 1

/-- `ERRMSGBASE_MAXFLOATLENGTH`. -/
def maxFloatLength : ℕ := 32 + 1

/-- `ERRMSGBASE_NULLPOINTERMESSAGE`. -/
def nullPointerMessage : CStr := ⟨bytesOf "<null pointer>", by decide⟩

/-- A string that grows, and the number of its blocks. -/
structure StringBuffer where
  lStringBufferBlockNumber : ℕ
  pStringBuffer : Cells UInt8

/-- The loop that adds blocks until `need` bytes and a NUL fit. -/
def growBlockNumber (need : ℕ) : ℕ → ℕ → Except Fault ℕ
  | 0, _ => .error .outOfFuel
  | fuel + 1, lStringBufferBlockNumber =>
    let lStringBufferBlockNumber := lStringBufferBlockNumber + 1
    if need ≥ lStringBufferBlockNumber * blockLength then
      growBlockNumber need fuel lStringBufferBlockNumber
    else .ok lStringBufferBlockNumber

/-- `allocMemoryBlockForStringIfNecessary`. -/
def allocMemoryBlockForStringIfNecessary (b : StringBuffer) (lLengthToInsert : ℕ) :
    Except Fault StringBuffer := do
  let lStringBufferLength ←
    if b.lStringBufferBlockNumber ≠ 0 then strlen b.pStringBuffer else pure 0
  if b.lStringBufferBlockNumber = 0 ∨
      lStringBufferLength + lLengthToInsert + 1 ≥ b.lStringBufferBlockNumber * blockLength then
    let need := lStringBufferLength + lLengthToInsert
    let lStringBufferBlockNumber ← growBlockNumber need (need + 1) b.lStringBufferBlockNumber
    let pLocalStringBuffer : Cells UInt8 :=
      List.replicate (lStringBufferBlockNumber * blockLength) none
    let pLocalStringBuffer ← strcpy pLocalStringBuffer 0
      (if lStringBufferLength ≠ 0 then b.pStringBuffer else [some 0])
    return ⟨lStringBufferBlockNumber, pLocalStringBuffer⟩
  else return b

/-- Room is made for a text of a length, and the text is put behind the string. -/
def insertText (b : StringBuffer) (lValueLength : ℕ) (pValue : Cells UInt8) :
    Except Fault StringBuffer := do
  let b ← allocMemoryBlockForStringIfNecessary b lValueLength
  let pStringBuffer ← strcat b.pStringBuffer pValue
  return { b with pStringBuffer := pStringBuffer }

/-- The kinds of directives. -/
inductive Directive
  | long
  | unsignedLong
  | longLong
  | unsignedLongLong
  | double
  | char
  | string
  deriving DecidableEq, Repr

/-- An argument; a `double` is told by what `%lf` prints of it. -/
inductive Argument
  | long (lValue : Int64)
  | unsignedLong (ulValue : UInt64)
  | longLong (llValue : Int64)
  | unsignedLongLong (ullValue : UInt64)
  | double (printed : CStr)
  | int (cValue : UInt8)
  | charPointer (pValue : Option CStr)
  deriving DecidableEq

/-- The bytes of `%ld`. -/
def printLd (n : ℤ) : CStr :=
  ⟨(Stdio.printLld n).map fun c => UInt8.ofNat c.toNat, Stdio.zero_notMem_printLld n⟩

/-- The bytes of `%lu`. -/
def printLu (n : ℕ) : CStr :=
  ⟨(Nat.toDigits 10 n).map fun c => UInt8.ofNat c.toNat, Stdio.zero_notMem_toDigits n⟩

/-- `sprintf` into an array of `size` bytes, whose text is put behind the string. -/
def insertPrinted (b : StringBuffer) (lErrorCurrentLength size : ℕ) (printed : CStr) :
    Except Fault (StringBuffer × ℕ) := do
  let pValue ← writeAt (List.replicate size none) 0 printed.cells
  let lValueLength ← strlen pValue
  let b ← insertText b lValueLength pValue
  return (b, lErrorCurrentLength + lValueLength)

/-- A directive with its argument, which is taken from the list. -/
def insertArgument (b : StringBuffer) (lErrorCurrentLength : ℕ) :
    Directive → List Argument → Except Fault ((StringBuffer × ℕ) × List Argument)
  | .long, .long lValue :: vaInputList => do
    return (← insertPrinted b lErrorCurrentLength maxLongLength (printLd lValue.toInt), vaInputList)
  | .unsignedLong, .unsignedLong ulValue :: vaInputList => do
    return (← insertPrinted b lErrorCurrentLength maxLongLength (printLu ulValue.toNat), vaInputList)
  | .longLong, .longLong llValue :: vaInputList => do
    return (← insertPrinted b lErrorCurrentLength maxLongLength (printLd llValue.toInt), vaInputList)
  | .unsignedLongLong, .unsignedLongLong ullValue :: vaInputList => do
    return (← insertPrinted b lErrorCurrentLength maxLongLength (printLu ullValue.toNat), vaInputList)
  | .double, .double printed :: vaInputList => do
    return (← insertPrinted b lErrorCurrentLength maxFloatLength printed, vaInputList)
  | .char, .int cValue :: vaInputList => do
    let b ← allocMemoryBlockForStringIfNecessary b 1
    let pError ← store b.pStringBuffer lErrorCurrentLength cValue
    let pError ← store pError (lErrorCurrentLength + 1) 0
    return (({ b with pStringBuffer := pError }, lErrorCurrentLength + 1), vaInputList)
  | .string, .charPointer pValue :: vaInputList => do
    let pValue := (pValue.getD nullPointerMessage).cells
    let lValueLength ← strlen pValue
    let b ← insertText b lValueLength pValue
    return ((b, lErrorCurrentLength + lValueLength), vaInputList)
  -- `va_arg` of another type, or of no argument
  | _, _ => .error .uninitialised

/-- The directive behind a percent sign, and how long it is. -/
def directiveAt (pPredefinedMessageNext : Cells UInt8) : Except Fault (Option (Directive × ℕ)) := do
  let c ← load pPredefinedMessageNext 1
  if c = 100 then return some (.long, 2)
  else if c = 108 then
    let c ← load pPredefinedMessageNext 2
    if c = 100 then return some (.long, 3)
    else if c = 117 then return some (.unsignedLong, 3)
    else if c = 108 then
      let c ← load pPredefinedMessageNext 3
      if c = 100 then return some (.longLong, 4)
      else if c = 117 then return some (.unsignedLongLong, 4)
      else return none
    else if c = 102 then return some (.double, 3)
    else return none
  else if c = 102 then return some (.double, 2)
  else if c = 99 then return some (.char, 2)
  else if c = 115 then return some (.string, 2)
  else return none

/-- A percent sign. -/
def percentSign : CStr := ⟨[37], by decide⟩

/-- The loop over the percent signs of the message, and what is behind it. -/
def scanMessage (lArgumentsNumber : ℤ) :
    ℕ → ℤ → Cells UInt8 → List Argument → StringBuffer → ℕ → Except Fault StringBuffer
  | 0, _, _, _, _, _ => .error .outOfFuel
  | fuel + 1, lModulesCounter, pPredefinedMessagePrev, vaInputList, b, lErrorCurrentLength => do
    match ← strchr pPredefinedMessagePrev 37 with
    | none => insertText b (← strlen pPredefinedMessagePrev) pPredefinedMessagePrev
    | some lLength =>
      let lModulesCounter := lModulesCounter + 1
      let b ← allocMemoryBlockForStringIfNecessary b lLength
      let pError ← strncat b.pStringBuffer pPredefinedMessagePrev lLength
      let lErrorCurrentLength := lErrorCurrentLength + lLength
      let pError ← store pError lErrorCurrentLength 0
      let b := { b with pStringBuffer := pError }
      let pPredefinedMessageNext := pPredefinedMessagePrev.drop lLength
      if (← load pPredefinedMessageNext 1) = 37 then
        let b ← insertText b 1 percentSign.cells
        scanMessage lArgumentsNumber fuel lModulesCounter (pPredefinedMessageNext.drop 2)
          vaInputList b (lErrorCurrentLength + 1)
      else if lModulesCounter > lArgumentsNumber then
        let b ← insertText b 1 percentSign.cells
        scanMessage lArgumentsNumber fuel lModulesCounter (pPredefinedMessageNext.drop 1)
          vaInputList b (lErrorCurrentLength + 1)
      else
        match ← directiveAt pPredefinedMessageNext with
        | some (directive, length) =>
          let ((b, lErrorCurrentLength), vaInputList) ←
            insertArgument b lErrorCurrentLength directive vaInputList
          scanMessage lArgumentsNumber fuel lModulesCounter (pPredefinedMessageNext.drop length)
            vaInputList b lErrorCurrentLength
        | none =>
          let b ← insertText b 1 percentSign.cells
          scanMessage lArgumentsNumber fuel lModulesCounter (pPredefinedMessageNext.drop 1)
            vaInputList b (lErrorCurrentLength + 1)

/-- What `sprintf` makes of the header. -/
def headerText (className fileName : List UInt8) (lErrMsgIdentifier : Int64)
    (ulFileLineNumber : UInt64) : List UInt8 :=
  bytesOf "Class: " ++ className ++
    (bytesOf ", Code: " ++ (printLd lErrMsgIdentifier.toInt).bytes) ++
    (bytesOf ", File: " ++ fileName) ++
    (bytesOf ", Line: " ++ (printLu ulFileLineNumber.toNat).bytes) ++ bytesOf ", Msg: "

/-- The space that is asked for the header. -/
def headerSpace (classNameLength fileNameLength : ℕ) : ℕ :=
  let lMaxErrorCodeLength := 16
  let lMaxFileLineLength := 16
  7 + classNameLength + 8 + lMaxErrorCodeLength + 8 + fileNameLength + 8 + lMaxFileLineLength + 7

/-- `buildMessage`: what it returns, and the string. -/
def buildMessage (pErrMsgClassName : Option (Cells UInt8)) (lErrMsgIdentifier : Int64)
    (pFileName : Cells UInt8) (ulFileLineNumber : UInt64) (pPredefinedMessage : Option (Cells UInt8))
    (vaInputList : List Argument) (lArgumentsNumber : ℤ) :
    Except Fault (ℕ × Option (Cells UInt8)) :=
  match pErrMsgClassName, pPredefinedMessage with
  | some pErrMsgClassName, some pPredefinedMessage => do
    let className ← cstr pErrMsgClassName
    let fileName ← cstr pFileName
    let b ← allocMemoryBlockForStringIfNecessary ⟨0, []⟩
      (headerSpace className.length fileName.length)
    let header := headerText className fileName lErrMsgIdentifier ulFileLineNumber
    let pError ← writeAt b.pStringBuffer 0 (header.map some ++ [some 0])
    let lErrorCurrentLength ← strlen pError
    let b ← scanMessage lArgumentsNumber ((← strlen pPredefinedMessage) + 1) 0 pPredefinedMessage
      vaInputList { b with pStringBuffer := pError } lErrorCurrentLength
    return (0, some b.pStringBuffer)
  | _, _ => .ok (1, none)

/-! ### Predefined messages -/

/-- A directive with an argument of its type. -/
inductive Value
  | d (lValue : Int64)
  | ld (lValue : Int64)
  | lu (ulValue : UInt64)
  | lld (llValue : Int64)
  | llu (ullValue : UInt64)
  | c (cValue : UInt8) (h : cValue ≠ 0)
  | s (pValue : Option CStr)

namespace Value

/-- What is behind the percent sign. -/
def letters : Value → List UInt8
  | .d _ => [100]
  | .ld _ => [108, 100]
  | .lu _ => [108, 117]
  | .lld _ => [108, 108, 100]
  | .llu _ => [108, 108, 117]
  | .c _ _ => [99]
  | .s _ => [115]

def directive : Value → Directive
  | .d _ | .ld _ => .long
  | .lu _ => .unsignedLong
  | .lld _ => .longLong
  | .llu _ => .unsignedLongLong
  | .c _ _ => .char
  | .s _ => .string

def argument : Value → Argument
  | .d lValue | .ld lValue => .long lValue
  | .lu ulValue => .unsignedLong ulValue
  | .lld llValue => .longLong llValue
  | .llu ullValue => .unsignedLongLong ullValue
  | .c cValue _ => .int cValue
  | .s pValue => .charPointer pValue

/-- The text of the argument. -/
def printed : Value → CStr
  | .d lValue | .ld lValue => printLd lValue.toInt
  | .lu ulValue => printLu ulValue.toNat
  | .lld llValue => printLd llValue.toInt
  | .llu ullValue => printLu ullValue.toNat
  | .c cValue h => ⟨[cValue], fun h0 => h (List.mem_singleton.mp h0).symm⟩
  | .s pValue => pValue.getD nullPointerMessage

end Value

/-- What begins with a percent sign. -/
inductive Conversion
  | percent
  | value (v : Value)

namespace Conversion

/-- The conversion as it is written, without the percent sign. -/
def letters : Conversion → List UInt8
  | .percent => [37]
  | .value v => v.letters

def argument : Conversion → Option Argument
  | .percent => none
  | .value v => some v.argument

/-- What stands for the conversion in the text. -/
def printed : Conversion → List UInt8
  | .percent => [37]
  | .value v => v.printed.bytes

/-- What stands for the conversion when its argument is not put in. -/
def unfilled : Conversion → List UInt8
  | .percent => [37]
  | .value v => 37 :: v.letters

end Conversion

/-- Text without percent signs. -/
structure Text where
  bytes : List UInt8
  nulFree : 0 ∉ bytes
  percentFree : 37 ∉ bytes

/-- **A predefined message**: conversions, each with the text in front of it, and the text behind
them. -/
structure Message where
  parts : List (Text × Conversion)
  rest : Text

/-- The texts and conversions, each conversion as `show` has it. -/
def filled (shown : Conversion → List UInt8) (parts : List (Text × Conversion)) : List UInt8 :=
  parts.flatMap fun p => p.1.bytes ++ shown p.2

namespace Message

/-- The message as it is written. -/
def text (m : Message) : List UInt8 := filled (fun c => 37 :: c.letters) m.parts ++ m.rest.bytes

/-- The arguments, one for each directive. -/
def arguments (m : Message) : List Argument := m.parts.filterMap fun p => p.2.argument

/-- The message with its arguments. -/
def expected (m : Message) : List UInt8 := filled Conversion.printed m.parts ++ m.rest.bytes

end Message

/-- What the scanner makes of parts, with `lArgumentsNumber` conversions left that may be filled. -/
def scanned (left : ℕ) (parts : List (Text × Conversion)) : List UInt8 :=
  filled Conversion.printed (parts.take left) ++ filled Conversion.unfilled (parts.drop left)

/-! ### The string -/

/-- The string, in all of its blocks. -/
structure Grown (b : StringBuffer) (s : List UInt8) : Prop where
  blocks : b.lStringBufferBlockNumber ≠ 0
  size : b.pStringBuffer.length = b.lStringBufferBlockNumber * blockLength
  holds : Holds b.pStringBuffer s

/-- The loop ends with the first number of blocks that is large enough and larger than before. -/
theorem growBlockNumber_eq {need fuel n : ℕ} (h : need < (n + fuel) * blockLength)
    (hfuel : 0 < fuel) :
    growBlockNumber need fuel n = .ok (max (n + 1) (need / blockLength + 1)) := by
  induction fuel generalizing n with
  | zero => omega
  | succ fuel ih =>
    unfold growBlockNumber
    dsimp only
    by_cases hmore : need ≥ (n + 1) * blockLength
    · have hdiv : n + 1 ≤ need / blockLength :=
        (Nat.le_div_iff_mul_le (by decide)).mpr hmore
      have hpos : 0 < fuel := by
        rcases Nat.eq_zero_or_pos fuel with rfl | hpos
        · rw [Nat.zero_add] at h
          exact absurd hmore (Nat.not_le.mpr h)
        · exact hpos
      have hnext : need < (n + 1 + fuel) * blockLength := by
        rwa [Nat.add_assoc, Nat.add_comm 1 fuel]
      rw [if_pos hmore, ih hnext hpos]
      exact congrArg Except.ok (by omega)
    · have hdiv : need / blockLength < n + 1 :=
        (Nat.div_lt_iff_lt_mul (by decide)).mpr (Nat.not_le.mp hmore)
      rw [if_neg hmore]
      exact congrArg Except.ok (by omega)

/-- The first blocks. -/
theorem alloc_first (n : ℕ) : ∃ b, allocMemoryBlockForStringIfNecessary ⟨0, []⟩ n = .ok b ∧
    b.lStringBufferBlockNumber = n / blockLength + 1 ∧
      b.pStringBuffer.length = (n / blockLength + 1) * blockLength := by
  have hgrow : growBlockNumber (0 + n) (0 + n + 1) 0 = .ok (n / blockLength + 1) := by
    rw [Nat.zero_add, growBlockNumber_eq (by unfold blockLength; omega) (Nat.succ_pos _)]
    exact congrArg Except.ok (Nat.max_eq_right (Nat.succ_le_succ (Nat.zero_le _)))
  have hempty : Holds [some 0] [] := ⟨List.not_mem_nil, [], rfl⟩
  obtain ⟨m, hcopy, hlength, -⟩ := hempty.strcpy_eq
    (List.replicate ((n / blockLength + 1) * blockLength) none)
    (by rw [List.length_replicate, List.length_nil]; unfold blockLength; omega)
  refine ⟨⟨n / blockLength + 1, m⟩, ?_, rfl, hlength.trans List.length_replicate⟩
  unfold allocMemoryBlockForStringIfNecessary
  rw [if_neg (by simp)]
  simp only [pure_bind, true_or, if_true, ne_eq, not_true_eq_false, if_false, hgrow, ok_bind, hcopy]
  rfl

/-- **There is room for what is put in**, and for a NUL. -/
theorem alloc_spec {b : StringBuffer} {s : List UInt8} (h : Grown b s) (n : ℕ) :
    ∃ b', allocMemoryBlockForStringIfNecessary b n = .ok b' ∧ Grown b' s ∧
      s.length + n < b'.pStringBuffer.length := by
  unfold allocMemoryBlockForStringIfNecessary
  rw [if_pos h.blocks, h.holds.strlen_eq, ok_bind]
  dsimp only
  by_cases hgrow : s.length + n + 1 ≥ b.lStringBufferBlockNumber * blockLength
  · have hloop := growBlockNumber_eq
      (show s.length + n < (b.lStringBufferBlockNumber + (s.length + n + 1)) * blockLength by
        unfold blockLength
        omega)
      (Nat.succ_pos _)
    generalize hn : max (b.lStringBufferBlockNumber + 1) ((s.length + n) / blockLength + 1) = blocks
      at hloop
    have hroom : s.length + n < blocks * blockLength := by
      refine (Nat.div_lt_iff_lt_mul (by decide)).mp ?_
      omega
    have hsource : Holds (if s.length ≠ 0 then b.pStringBuffer else [some 0]) s := by
      by_cases hnil : s.length = 0
      · obtain rfl := List.length_eq_zero_iff.mp hnil
        rw [if_neg (by simp)]
        exact ⟨List.not_mem_nil, [], rfl⟩
      · rw [if_pos hnil]
        exact h.holds
    obtain ⟨m, hcopy, hlength, hm, -⟩ := hsource.strcpy_eq
      (List.replicate (blocks * blockLength) none) (by rw [List.length_replicate]; omega)
    rw [List.length_replicate] at hlength
    rw [if_pos (Or.inr hgrow), hloop, ok_bind, hcopy, ok_bind]
    refine ⟨⟨blocks, m⟩, rfl, ⟨?_, hlength, hm⟩, by rw [hlength]; exact hroom⟩
    show blocks ≠ 0
    omega
  · rw [if_neg (not_or.mpr ⟨h.blocks, hgrow⟩)]
    refine ⟨b, rfl, h, ?_⟩
    rw [h.size]
    omega

/-- A text is put behind the string. -/
theorem insertText_spec {b : StringBuffer} {s t : List UInt8} (h : Grown b s) {m : Cells UInt8}
    (hm : Holds m t) : ∃ b', insertText b t.length m = .ok b' ∧ Grown b' (s ++ t) := by
  obtain ⟨b', halloc, hb', hroom⟩ := alloc_spec h t.length
  obtain ⟨m', hcat, hlength, hm'⟩ := hb'.holds.strcat_eq hm hroom
  refine ⟨{ b' with pStringBuffer := m' }, ?_, hb'.blocks, hlength.trans hb'.size, hm'⟩
  unfold insertText
  rw [halloc, ok_bind, hcat, ok_bind]
  rfl

/-! ### The directives -/

/-- What is printed is put behind the string when it fits the array. -/
theorem insertPrinted_spec {b : StringBuffer} {s : List UInt8} (h : Grown b s) {size : ℕ}
    (printed : CStr) (hfits : printed.bytes.length < size) :
    ∃ b', insertPrinted b s.length size printed =
        .ok (b', (s ++ printed.bytes).length) ∧ Grown b' (s ++ printed.bytes) := by
  have hcells : printed.cells.length = printed.bytes.length + 1 := by
    rw [CStr.cells, List.length_append, List.length_map, List.length_singleton]
  have hwrite : writeAt (List.replicate size none) 0 printed.cells = .ok
      (printed.cells ++ (List.replicate size none).drop (printed.bytes.length + 1)) := by
    rw [writeAt, if_pos (by rw [hcells, List.length_replicate]; omega), hcells, List.take_zero,
      List.nil_append, Nat.zero_add]
  have hvalue : Holds (printed.cells ++ (List.replicate size none).drop (printed.bytes.length + 1))
      printed.bytes :=
    ⟨printed.nulFree, _, List.append_assoc _ _ _⟩
  obtain ⟨b', hinsert, hb'⟩ := insertText_spec h hvalue
  refine ⟨b', ?_, hb'⟩
  unfold insertPrinted
  rw [hwrite, ok_bind, hvalue.strlen_eq, ok_bind, hinsert, ok_bind, List.length_append]
  rfl

theorem length_printLd (n : Int64) : (printLd n.toInt).bytes.length < maxLongLength := by
  have hlow := n.le_toInt
  have hhigh := n.toInt_lt
  have hle : (Stdio.printLld n.toInt).length ≤ 21 := Stdio.length_printLld_le (by omega)
  have hlength : (printLd n.toInt).bytes.length = (Stdio.printLld n.toInt).length := List.length_map _
  rw [hlength]
  unfold maxLongLength
  omega

theorem length_printLu (n : UInt64) : (printLu n.toNat).bytes.length < maxLongLength := by
  have hlt := n.toNat_lt
  have hle : (Nat.toDigits 10 n.toNat).length ≤ 20 := Stdio.length_toDigits_le (by omega)
  have hlength : (printLu n.toNat).bytes.length = (Nat.toDigits 10 n.toNat).length :=
    List.length_map _
  rw [hlength]
  unfold maxLongLength
  omega

/-- **A directive puts its argument behind the string.** -/
theorem insertArgument_spec {b : StringBuffer} {s : List UInt8} (h : Grown b s) (v : Value)
    (vaInputList : List Argument) :
    ∃ b', insertArgument b s.length v.directive (v.argument :: vaInputList) =
        .ok ((b', (s ++ v.printed.bytes).length), vaInputList) ∧
      Grown b' (s ++ v.printed.bytes) := by
  have hnumber : ∀ printed : CStr, printed.bytes.length < maxLongLength →
      ∃ b', (do return (← insertPrinted b s.length maxLongLength printed, vaInputList) :
          Except Fault ((StringBuffer × ℕ) × List Argument)) =
          .ok ((b', (s ++ printed.bytes).length), vaInputList) ∧ Grown b' (s ++ printed.bytes) := by
    intro printed hfits
    obtain ⟨b', hprinted, hb'⟩ := insertPrinted_spec h printed hfits
    exact ⟨b', by rw [hprinted, ok_bind]; rfl, hb'⟩
  cases v with
  | d lValue => exact hnumber _ (length_printLd lValue)
  | ld lValue => exact hnumber _ (length_printLd lValue)
  | lu ulValue => exact hnumber _ (length_printLu ulValue)
  | lld llValue => exact hnumber _ (length_printLd llValue)
  | llu ullValue => exact hnumber _ (length_printLu ullValue)
  | c cValue hc =>
    -- the character is put where the NUL was
    obtain ⟨b', halloc, hb', hroom⟩ := alloc_spec h 1
    obtain ⟨hnul, rest, hcells⟩ := hb'.holds
    have hlength := congrArg List.length hcells
    rw [List.length_append, List.length_map, List.length_cons] at hlength
    obtain ⟨x, rest', rfl⟩ : ∃ x rest', rest = x :: rest' :=
      List.exists_cons_of_length_pos (by omega)
    have hfirst := store_append (s.map some) (x :: rest') (some 0) cValue
    have hsecond := store_append ((s ++ [cValue]).map some) rest' x 0
    rw [List.length_map] at hfirst hsecond
    rw [List.length_append, List.length_singleton, List.map_append, List.append_assoc,
      List.append_assoc] at hsecond
    refine ⟨{ b' with
      pStringBuffer := s.map some ++ ([cValue].map some ++ some 0 :: rest') }, ?_, hb'.blocks, ?_, ?_⟩
    · show (do
        let b ← allocMemoryBlockForStringIfNecessary b 1
        let pError ← store b.pStringBuffer s.length cValue
        let pError ← store pError (s.length + 1) 0
        return (({ b with pStringBuffer := pError }, s.length + 1), vaInputList) :
          Except Fault ((StringBuffer × ℕ) × List Argument)) = _
      rw [halloc, ok_bind, hcells, hfirst, ok_bind]
      exact (congrArg (· >>= _) hsecond).trans (by rw [ok_bind, List.length_append]; rfl)
    · rw [← hb'.size, hcells]
      simp only [List.length_append, List.length_map, List.length_cons, List.length_nil]
      omega
    · refine ⟨?_, rest', ?_⟩
      · show 0 ∉ s ++ [cValue]
        rw [List.mem_append, not_or]
        exact ⟨hnul, fun h0 => hc (List.mem_singleton.mp h0).symm⟩
      · rw [List.map_append, List.append_assoc]
        rfl
  | s pValue =>
    obtain ⟨b', hinsert, hb'⟩ := insertText_spec h (pValue.getD nullPointerMessage).holds
    refine ⟨b', ?_, hb'⟩
    show (do
      let lValueLength ← strlen (pValue.getD nullPointerMessage).cells
      let b ← insertText b lValueLength (pValue.getD nullPointerMessage).cells
      return ((b, s.length + lValueLength), vaInputList) :
        Except Fault ((StringBuffer × ℕ) × List Argument)) = _
    rw [(pValue.getD nullPointerMessage).holds.strlen_eq, ok_bind, hinsert, ok_bind,
      List.length_append]
    rfl

/-- A directive is recognised. -/
theorem directiveAt_eq (v : Value) {m : Cells UInt8} {rest : List UInt8}
    (hm : Terminated m (37 :: v.letters ++ rest)) :
    directiveAt m = .ok (some (v.directive, v.letters.length + 1)) := by
  have hload : ∀ (x y : List UInt8) (c : UInt8), 37 :: v.letters ++ rest = x ++ c :: y →
      load m x.length = .ok c := by
    intro x y c heq
    rw [heq] at hm
    exact hm.load_eq rfl
  unfold directiveAt
  cases v with
  | d lValue =>
    rw [show load m 1 = .ok 100 from hload [37] rest 100 rfl]
    rfl
  | ld lValue =>
    rw [show load m 1 = .ok 108 from hload [37] (100 :: rest) 108 rfl,
      show load m 2 = .ok 100 from hload [37, 108] rest 100 rfl]
    rfl
  | lu ulValue =>
    rw [show load m 1 = .ok 108 from hload [37] (117 :: rest) 108 rfl,
      show load m 2 = .ok 117 from hload [37, 108] rest 117 rfl]
    rfl
  | lld llValue =>
    rw [show load m 1 = .ok 108 from hload [37] (108 :: 100 :: rest) 108 rfl,
      show load m 2 = .ok 108 from hload [37, 108] (100 :: rest) 108 rfl,
      show load m 3 = .ok 100 from hload [37, 108, 108] rest 100 rfl]
    rfl
  | llu ullValue =>
    rw [show load m 1 = .ok 108 from hload [37] (108 :: 117 :: rest) 108 rfl,
      show load m 2 = .ok 108 from hload [37, 108] (117 :: rest) 108 rfl,
      show load m 3 = .ok 117 from hload [37, 108, 108] rest 117 rfl]
    rfl
  | c cValue hc =>
    rw [show load m 1 = .ok 99 from hload [37] rest 99 rfl]
    rfl
  | s pValue =>
    rw [show load m 1 = .ok 115 from hload [37] rest 115 rfl]
    rfl

/-- The letters of a directive are no percent signs. -/
theorem Value.letters_plain (v : Value) : 37 ∉ v.letters := by
  cases v <;> simp [letters]

/-! ### The scanner -/

theorem scanned_cons (left : ℕ) (t : Text) (c : Conversion) (parts : List (Text × Conversion)) :
    scanned left ((t, c) :: parts) =
      t.bytes ++ (if 0 < left then c.printed else c.unfilled) ++ scanned (left - 1) parts := by
  cases left with
  | zero =>
    show filled _ [] ++ filled _ ((t, c) :: parts) = _ ++ (filled _ (parts.take 0) ++ filled _ _)
    rw [List.take_zero]
    rfl
  | succ left =>
    show (t.bytes ++ c.printed ++ filled _ (parts.take left)) ++ filled _ (parts.drop left) = _
    rw [List.append_assoc]
    rfl

/-- The first percent sign of a message. -/
theorem strchr_percent {m : Cells UInt8} {u rest : List UInt8} (hm : Holds m (u ++ 37 :: rest))
    (hu : 37 ∉ u) : strchr m 37 = .ok (some u.length) := by
  rw [hm.strchr_eq, if_neg (by decide), if_pos (by simp), List.idxOf_append_of_notMem hu]
  simp

/-- What the scanner does at a percent sign, with the text in front of it behind the string. -/
def atSign (N : ℤ) (fuel : ℕ) (i : ℤ) (m : Cells UInt8) (va : List Argument) (b : StringBuffer)
    (length : ℕ) : Except Fault StringBuffer := do
  if (← load m 1) = 37 then
    let b ← insertText b 1 percentSign.cells
    scanMessage N fuel i (m.drop 2) va b (length + 1)
  else if i > N then
    let b ← insertText b 1 percentSign.cells
    scanMessage N fuel i (m.drop 1) va b (length + 1)
  else
    match ← directiveAt m with
    | some (directive, n) =>
      let ((b, length), va) ← insertArgument b length directive va
      scanMessage N fuel i (m.drop n) va b length
    | none =>
      let b ← insertText b 1 percentSign.cells
      scanMessage N fuel i (m.drop 1) va b (length + 1)

/-- The text in front of a percent sign is put behind the string, and the scanner goes on from the
sign. -/
theorem scanMessage_sign {m : Cells UInt8} {u rest : List UInt8} (hm : Holds m (u ++ 37 :: rest))
    (hu : 37 ∉ u) {b : StringBuffer} {s : List UInt8} (hb : Grown b s) (N i : ℤ)
    (va : List Argument) (fuel : ℕ) :
    ∃ b' m', Grown b' (s ++ u) ∧ Holds m' (37 :: rest) ∧
      scanMessage N (fuel + 1) i m va b s.length =
        atSign N fuel (i + 1) m' va b' (s ++ u).length := by
  have hlength : u.length ≤ (u ++ 37 :: rest).length := by
    rw [List.length_append]
    omega
  obtain ⟨b₁, halloc, hb₁, hroom⟩ := alloc_spec hb u.length
  obtain ⟨m₁, hcat, hlen₁, hm₁⟩ := hb₁.holds.strncat_eq hm hlength hroom
  rw [List.take_left] at hm₁
  obtain ⟨m₂, hstore, hlen₂, hm₂⟩ := hm₁.store_nul (Nat.le_refl _)
  rw [List.take_length] at hm₂
  have hdrop := hm.drop hlength
  rw [List.drop_left] at hdrop
  refine ⟨{ b₁ with pStringBuffer := m₂ }, m.drop u.length,
    ⟨hb₁.blocks, hlen₂.trans (hlen₁.trans hb₁.size), hm₂⟩, hdrop, ?_⟩
  rw [scanMessage, strchr_percent hm hu, ok_bind]
  dsimp only
  rw [List.length_append] at hstore
  rw [halloc, ok_bind, hcat, ok_bind, hstore, ok_bind, List.length_append]
  rfl

/-- "%%" gives a percent sign. -/
theorem atSign_percent {m : Cells UInt8} {rest : List UInt8} (hm : Holds m (37 :: 37 :: rest))
    {b : StringBuffer} {s : List UInt8} (hb : Grown b s) (N i : ℤ) (va : List Argument) (fuel : ℕ) :
    ∃ b' m', Grown b' (s ++ [37]) ∧ Holds m' rest ∧
      atSign N fuel i m va b s.length = scanMessage N fuel i m' va b' (s ++ [37]).length := by
  have hload : load m 1 = .ok 37 := Terminated.load_eq (x := [37]) hm.split rfl
  obtain ⟨b', hinsert, hb'⟩ := insertText_spec hb percentSign.holds
  have hinsert : insertText b 1 percentSign.cells = .ok b' := hinsert
  have hrest : Holds (m.drop 2) rest := hm.drop (i := 2) (by simp)
  refine ⟨b', m.drop 2, hb', hrest, ?_⟩
  unfold atSign
  rw [hload, ok_bind, if_pos rfl, hinsert, ok_bind, List.length_append]
  rfl

/-- The letter behind the percent sign of a directive is no percent sign. -/
theorem load_letter {m : Cells UInt8} (v : Value) {rest : List UInt8}
    (hm : Holds m (37 :: v.letters ++ rest)) : ∃ c, load m 1 = .ok c ∧ c ≠ 37 := by
  have hplain := v.letters_plain
  obtain ⟨c, letters, hletters⟩ : ∃ c letters, v.letters = c :: letters := by
    cases v <;> exact ⟨_, _, rfl⟩
  rw [hletters] at hm hplain
  refine ⟨c, Terminated.load_eq (x := [37]) hm.split rfl, ?_⟩
  rintro rfl
  exact hplain List.mem_cons_self

/-- A directive without an argument left is taken for text. -/
theorem atSign_unfilled {m : Cells UInt8} (v : Value) {rest : List UInt8}
    (hm : Holds m (37 :: v.letters ++ rest)) {b : StringBuffer} {s : List UInt8} (hb : Grown b s)
    {N i : ℤ} (hi : i > N) (va : List Argument) (fuel : ℕ) :
    ∃ b' m', Grown b' (s ++ [37]) ∧ Holds m' (v.letters ++ rest) ∧
      atSign N fuel i m va b s.length = scanMessage N fuel i m' va b' (s ++ [37]).length := by
  obtain ⟨c, hload, hc⟩ := load_letter v hm
  obtain ⟨b', hinsert, hb'⟩ := insertText_spec hb percentSign.holds
  have hinsert : insertText b 1 percentSign.cells = .ok b' := hinsert
  have hrest : Holds (m.drop 1) (v.letters ++ rest) := hm.drop (i := 1) (by simp)
  refine ⟨b', m.drop 1, hb', hrest, ?_⟩
  unfold atSign
  rw [hload, ok_bind, if_neg hc, if_pos hi, hinsert, ok_bind, List.length_append]
  rfl

/-- A directive with an argument left is filled. -/
theorem atSign_filled {m : Cells UInt8} (v : Value) {rest : List UInt8}
    (hm : Holds m (37 :: v.letters ++ rest)) {b : StringBuffer} {s : List UInt8} (hb : Grown b s)
    {N i : ℤ} (hi : ¬i > N) (va : List Argument) (fuel : ℕ) :
    ∃ b' m', Grown b' (s ++ v.printed.bytes) ∧ Holds m' rest ∧
      atSign N fuel i m (v.argument :: va) b s.length =
        scanMessage N fuel i m' va b' (s ++ v.printed.bytes).length := by
  obtain ⟨c, hload, hc⟩ := load_letter v hm
  obtain ⟨b', hinsert, hb'⟩ := insertArgument_spec hb v va
  have hrest : Holds (m.drop (v.letters.length + 1)) rest := by
    have hdrop := hm.drop (i := v.letters.length + 1) (by simp)
    rwa [List.cons_append, List.drop_succ_cons, List.drop_left] at hdrop
  refine ⟨b', _, hb', hrest, ?_⟩
  unfold atSign
  rw [hload, ok_bind, if_neg hc, if_neg hi, directiveAt_eq v hm.split, ok_bind]
  dsimp only
  rw [hinsert, ok_bind]

/-- **The scanner fills as many conversions as there are arguments**, counting each "%%" for one.  The
induction is on the parts; in front of them there may be letters of a directive that was taken for
text. -/
theorem scanMessage_spec (N : ℕ) (rest : Text) {parts : List (Text × Conversion)}
    (pre : List UInt8) (hpre : 37 ∉ pre) {i : ℕ} {m : Cells UInt8}
    (hm : Holds m (pre ++ (filled (fun c => 37 :: c.letters) parts ++ rest.bytes)))
    {va : List Argument} (hva : i < N → va = parts.filterMap fun p => p.2.argument)
    {b : StringBuffer} {s : List UInt8} (hb : Grown b s) {fuel : ℕ} (hfuel : parts.length < fuel) :
    ∃ b', scanMessage N fuel i m va b s.length = .ok b' ∧
      Grown b' (s ++ (pre ++ (scanned (N - i) parts ++ rest.bytes))) := by
  induction parts generalizing pre i m va b s fuel with
  | nil =>
    obtain ⟨fuel, rfl⟩ := Nat.exists_eq_add_one.mpr (Nat.zero_lt_of_lt hfuel)
    have hplain : 37 ∉ pre ++ rest.bytes := by
      rw [List.mem_append, not_or]
      exact ⟨hpre, rest.percentFree⟩
    have hscanned : scanned (N - i) [] = [] := by
      unfold scanned
      rw [List.take_nil, List.drop_nil]
      rfl
    have hm' : Holds m (pre ++ rest.bytes) := hm
    obtain ⟨b', hinsert, hb'⟩ := insertText_spec hb hm'
    refine ⟨b', ?_, by rw [hscanned]; exact hb'⟩
    rw [scanMessage, hm'.strchr_none (by decide) hplain, ok_bind]
    dsimp only
    rw [hm'.strlen_eq, ok_bind, hinsert]
  | cons p parts ih =>
    obtain ⟨t, c⟩ := p
    obtain ⟨fuel, rfl⟩ := Nat.exists_eq_add_one.mpr (Nat.zero_lt_of_lt hfuel)
    have hfuel' : parts.length < fuel := by
      rw [List.length_cons] at hfuel
      omega
    have hcast : (i : ℤ) + 1 = ((i + 1 : ℕ) : ℤ) := by push_cast; rfl
    have hleft : N - i - 1 = N - (i + 1) := by omega
    have hplain : 37 ∉ pre ++ t.bytes := by
      rw [List.mem_append, not_or]
      exact ⟨hpre, t.percentFree⟩
    have hm' : Holds m (pre ++ t.bytes ++ 37 :: (c.letters ++
        (filled (fun c => 37 :: c.letters) parts ++ rest.bytes))) := by
      refine cast (congrArg (Holds m) ?_) hm
      simp only [filled, List.flatMap_cons, List.append_assoc, List.cons_append]
    obtain ⟨b₁, m₁, hb₁, hm₁, hsign⟩ := scanMessage_sign hm' hplain hb N i va fuel
    rw [hsign, hcast, scanned_cons, hleft]
    cases c with
    | percent =>
      obtain ⟨b₂, m₂, hb₂, hm₂, hrun⟩ := atSign_percent hm₁ hb₁ N (i + 1 : ℕ) va fuel
      obtain ⟨b', hrest, hb'⟩ := ih [] List.not_mem_nil hm₂
        (fun hi => hva (Nat.lt_of_succ_lt hi)) hb₂ hfuel'
      refine ⟨b', hrun.trans hrest, cast (congrArg (Grown b') ?_) hb'⟩
      simp only [Conversion.printed, Conversion.unfilled, ite_self, List.append_assoc,
        List.nil_append]
    | value v =>
      by_cases hi : i < N
      · have hnext : ¬((i + 1 : ℕ) : ℤ) > N := by omega
        obtain rfl : va = v.argument :: parts.filterMap fun p => p.2.argument := hva hi
        obtain ⟨b₂, m₂, hb₂, hm₂, hrun⟩ := atSign_filled v hm₁ hb₁ hnext _ fuel
        obtain ⟨b', hrest, hb'⟩ := ih [] List.not_mem_nil hm₂ (fun _ => rfl) hb₂ hfuel'
        refine ⟨b', hrun.trans hrest, cast (congrArg (Grown b') ?_) hb'⟩
        rw [if_pos (by omega)]
        simp only [Conversion.printed, List.append_assoc, List.nil_append]
      · have hnext : ((i + 1 : ℕ) : ℤ) > N := by omega
        obtain ⟨b₂, m₂, hb₂, hm₂, hrun⟩ := atSign_unfilled v hm₁ hb₁ hnext va fuel
        obtain ⟨b', hrest, hb'⟩ := ih (i := i + 1) v.letters v.letters_plain hm₂
          (fun h => by omega) hb₂ hfuel'
        refine ⟨b', hrun.trans hrest, cast (congrArg (Grown b') ?_) hb'⟩
        rw [if_neg (by omega)]
        simp only [Conversion.unfilled, List.append_assoc, List.cons_append, List.nil_append]

/-! ### The whole text -/

theorem Value.letters_nulFree (v : Value) : 0 ∉ v.letters := by
  cases v <;> simp [letters]

theorem Conversion.letters_nulFree (c : Conversion) : 0 ∉ c.letters := by
  cases c with
  | percent => decide
  | value v => exact v.letters_nulFree

/-- A message has no NUL. -/
theorem Message.text_nulFree (msg : Message) : 0 ∉ msg.text := by
  unfold Message.text filled
  rw [List.mem_append, not_or]
  refine ⟨fun h => ?_, msg.rest.nulFree⟩
  obtain ⟨⟨t, c⟩, -, hmem⟩ := List.mem_flatMap.mp h
  rcases List.mem_append.mp hmem with h | h
  · exact t.nulFree h
  · rcases List.mem_cons.mp h with h | h
    · exact absurd h (by decide)
    · exact c.letters_nulFree h

/-- A message as a string. -/
def Message.pPredefinedMessage (msg : Message) : CStr := ⟨msg.text, msg.text_nulFree⟩

theorem length_parts_le (parts : List (Text × Conversion)) :
    parts.length ≤ (filled (fun c => 37 :: c.letters) parts).length := by
  induction parts with
  | nil => exact Nat.zero_le _
  | cons p parts ih =>
    unfold filled at ih ⊢
    rw [List.flatMap_cons, List.length_append, List.length_append, List.length_cons,
      List.length_cons]
    omega

/-- The header and its NUL fit into the first blocks. -/
def HeaderFits (className fileName : CStr) (lErrMsgIdentifier : Int64) (ulFileLineNumber : UInt64) :
    Prop :=
  (headerText className.bytes fileName.bytes lErrMsgIdentifier ulFileLineNumber).length <
    (headerSpace className.bytes.length fileName.bytes.length / blockLength + 1) * blockLength

/-- **The header fits when the code and the line have at most 16 characters.** -/
theorem headerFits_of_length {className fileName : CStr} {lErrMsgIdentifier : Int64}
    {ulFileLineNumber : UInt64} (hcode : (printLd lErrMsgIdentifier.toInt).bytes.length ≤ 16)
    (hline : (printLu ulFileLineNumber.toNat).bytes.length ≤ 16) :
    HeaderFits className fileName lErrMsgIdentifier ulFileLineNumber := by
  have hwords : (bytesOf "Class: ").length = 7 ∧ (bytesOf ", Code: ").length = 8 ∧
      (bytesOf ", File: ").length = 8 ∧ (bytesOf ", Line: ").length = 8 ∧
      (bytesOf ", Msg: ").length = 7 := by decide
  obtain ⟨hclass, hcodeWord, hfile, hlineWord, hmsg⟩ := hwords
  unfold HeaderFits headerText headerSpace blockLength
  simp only [List.length_append, hclass, hcodeWord, hfile, hlineWord, hmsg]
  omega

theorem headerText_nulFree (className fileName : CStr) (lErrMsgIdentifier : Int64)
    (ulFileLineNumber : UInt64) :
    0 ∉ headerText className.bytes fileName.bytes lErrMsgIdentifier ulFileLineNumber := by
  unfold headerText
  simp only [List.mem_append, not_or]
  exact ⟨⟨⟨⟨⟨by decide, className.nulFree⟩, by decide, (printLd _).nulFree⟩, by decide,
    fileName.nulFree⟩, by decide, (printLu _).nulFree⟩, by decide⟩

variable (className fileName : CStr) (lErrMsgIdentifier : Int64) (ulFileLineNumber : UInt64)
  (msg : Message)

/-- The call for a message with its arguments. -/
def built : Except Fault (ℕ × Option (Cells UInt8)) :=
  buildMessage (some className.cells) lErrMsgIdentifier fileName.cells ulFileLineNumber
    (some msg.pPredefinedMessage.cells) msg.arguments msg.arguments.length

/-- **What `buildMessage` leaves in the string**, when the header fits. -/
theorem built_computes (hfits : HeaderFits className fileName lErrMsgIdentifier ulFileLineNumber) :
    ∃ p, built className fileName lErrMsgIdentifier ulFileLineNumber msg = .ok (0, some p) ∧
      Holds p (headerText className.bytes fileName.bytes lErrMsgIdentifier ulFileLineNumber ++
        (scanned msg.arguments.length msg.parts ++ msg.rest.bytes)) := by
  unfold HeaderFits at hfits
  have hnul := headerText_nulFree className fileName lErrMsgIdentifier ulFileLineNumber
  generalize hheader :
    headerText className.bytes fileName.bytes lErrMsgIdentifier ulFileLineNumber = header
    at hfits hnul
  obtain ⟨b, halloc, hblocks, hlength⟩ :=
    alloc_first (headerSpace className.bytes.length fileName.bytes.length)
  have hcells : (header.map some ++ [some 0]).length = header.length + 1 := by
    rw [List.length_append, List.length_map, List.length_singleton]
  have hwrite : writeAt b.pStringBuffer 0 (header.map some ++ [some 0]) = .ok
      (header.map some ++ [some 0] ++ b.pStringBuffer.drop (header.length + 1)) := by
    rw [writeAt, if_pos (by rw [hcells, hlength]; omega), hcells, List.take_zero, List.nil_append,
      Nat.zero_add]
  have hholds : Holds (header.map some ++ [some 0] ++ b.pStringBuffer.drop (header.length + 1))
      header := ⟨hnul, _, List.append_assoc _ _ _⟩
  have hgrown : Grown ⟨b.lStringBufferBlockNumber,
      header.map some ++ [some 0] ++ b.pStringBuffer.drop (header.length + 1)⟩ header := by
    refine ⟨by rw [hblocks]; exact Nat.succ_ne_zero _, ?_, hholds⟩
    dsimp only
    rw [List.length_append, hcells, List.length_drop, hlength, hblocks]
    omega
  obtain ⟨b', hscan, hb'⟩ := scanMessage_spec msg.arguments.length msg.rest []
    List.not_mem_nil msg.pPredefinedMessage.holds (i := 0) (fun _ => rfl) hgrown
    (show msg.parts.length < msg.text.length + 1 by
      have hle := length_parts_le msg.parts
      unfold Message.text
      rw [List.length_append]
      omega)
  refine ⟨b'.pStringBuffer, ?_, hb'.holds⟩
  unfold built buildMessage
  dsimp only
  rw [className.holds.cstr_eq, ok_bind, fileName.holds.cstr_eq, ok_bind, halloc, ok_bind, hheader,
    hwrite, ok_bind, hholds.strlen_eq, ok_bind, msg.pPredefinedMessage.holds.strlen_eq, ok_bind]
  exact (congrArg (· >>= _) hscan).trans (by rw [ok_bind]; rfl)

/-- A header that does not fit is written outside of the string. -/
theorem built_faults (hfits : ¬HeaderFits className fileName lErrMsgIdentifier ulFileLineNumber) :
    built className fileName lErrMsgIdentifier ulFileLineNumber msg = .error .outOfBounds := by
  unfold HeaderFits at hfits
  obtain ⟨b, halloc, -, hlength⟩ :=
    alloc_first (headerSpace className.bytes.length fileName.bytes.length)
  unfold built buildMessage
  dsimp only
  rw [className.holds.cstr_eq, ok_bind, fileName.holds.cstr_eq, ok_bind, halloc, ok_bind, writeAt,
    if_neg, error_bind]
  rw [List.length_append, List.length_map, List.length_singleton, hlength]
  omega

/-- **The text is right**: `buildMessage` ends well, without a write outside of the string, and the
string is the header and the message with its arguments. -/
def Built : Prop :=
  ∃ p, built className fileName lErrMsgIdentifier ulFileLineNumber msg = .ok (0, some p) ∧
    Holds p (headerText className.bytes fileName.bytes lErrMsgIdentifier ulFileLineNumber ++
      msg.expected)

/-- The conversions behind as many as there are directives read the same with their arguments and as
they are written; so it is when there is no "%%" in front of a directive. -/
theorem scanned_eq_iff (left : ℕ) (parts : List (Text × Conversion)) :
    scanned left parts = filled Conversion.printed parts ↔
      filled Conversion.unfilled (parts.drop left) = filled Conversion.printed (parts.drop left) := by
  have hsplit : filled Conversion.printed parts =
      filled Conversion.printed (parts.take left) ++ filled Conversion.printed (parts.drop left) := by
    unfold filled
    rw [← List.flatMap_append, List.take_append_drop]
  rw [hsplit, scanned]
  exact List.append_right_inj _

/-- **The text is right just when the header fits and the last directives, as many as there are "%%"
in front of them, would read the same without their arguments.** -/
theorem buildMessage_right_iff :
    Built className fileName lErrMsgIdentifier ulFileLineNumber msg ↔
      HeaderFits className fileName lErrMsgIdentifier ulFileLineNumber ∧
        filled Conversion.unfilled (msg.parts.drop msg.arguments.length) =
          filled Conversion.printed (msg.parts.drop msg.arguments.length) := by
  rw [← scanned_eq_iff]
  by_cases hfits : HeaderFits className fileName lErrMsgIdentifier ulFileLineNumber
  · obtain ⟨p, hrun, hp⟩ := built_computes className fileName lErrMsgIdentifier ulFileLineNumber msg
      hfits
    constructor
    · rintro ⟨p', hrun', hp'⟩
      obtain rfl : p = p' := by
        have heq := Except.ok.inj (hrun.symm.trans hrun')
        exact Option.some.inj (Prod.mk.inj heq).2
      have hsame := List.append_cancel_left (hp.unique hp')
      exact ⟨hfits, List.append_cancel_right hsame⟩
    · rintro ⟨-, hsame⟩
      rw [hsame] at hp
      exact ⟨p, hrun, hp⟩
  · refine iff_of_false ?_ fun h => hfits h.1
    rintro ⟨p, hrun, -⟩
    rw [built_faults className fileName lErrMsgIdentifier ulFileLineNumber msg hfits] at hrun
    cases hrun

/-- The message `100%% of %ld`, with the argument 7. -/
def percentMessage : Message where
  parts := [(⟨bytesOf "100", by decide, by decide⟩, .percent),
    (⟨bytesOf " of ", by decide, by decide⟩, .value (.ld 7))]
  rest := ⟨[], by decide, by decide⟩

/-- **The argument behind "%%" is not put in.** -/
theorem not_built_percentMessage :
    ¬Built ⟨bytesOf "ToolsErrors", by decide⟩ ⟨bytesOf "FileIO.cpp", by decide⟩ 1 2 percentMessage := by
  rintro ⟨p, hrun, hp⟩
  obtain ⟨p', hrun', hp'⟩ := built_computes ⟨bytesOf "ToolsErrors", by decide⟩
    ⟨bytesOf "FileIO.cpp", by decide⟩ 1 2 percentMessage
    (headerFits_of_length (by decide) (by decide))
  obtain rfl : p = p' := by
    have heq := Except.ok.inj (hrun.symm.trans hrun')
    exact Option.some.inj (Prod.mk.inj heq).2
  have hsame := List.append_cancel_left (hp'.unique hp)
  exact absurd hsame (by decide)

end ErrMsg

end CatraLibraries
