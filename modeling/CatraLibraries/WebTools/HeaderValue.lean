/-
# The value of a header field

`WebUtility::getHttpHeaderValue` (`WebTools/src/WebUtility.cpp`) cuts the headers into lines and looks
for the first one that begins with the name, a colon and a blank, in exactly this spelling.  The value
is what follows the blank, without the carriage return.

`Finds` says so for header blocks, and `getHttpHeaderValue_finds` that it holds of all of them.  Header
fields may be spelled in other ways: another case of letters, no blank behind the colon or several,
blanks at the end.  `Lookup` is the search that reads them all alike, and `not_lookup_of_spellings` has
a block for each way in which the two differ.
-/
import Mathlib.Data.List.DropRight
import CatraLibraries.Tools.StringTokenizer
import CatraLibraries.WebTools.ParseHttpHeader

namespace CatraLibraries

open Memory CString

namespace WebUtility

/-! ### The code -/

/-- The errors of `getHttpHeaderValue`; the last carries the name. -/
inductive HeaderValueError
  | errNoError
  | activationWrong
  | setBufferFailed
  | stringTokenizerInitFailed
  | stringTokenizerNextTokenFailed
  | stringTokenizerFinishFailed
  | headerNameNotFound (pHeaderName : List UInt8)
  deriving DecidableEq, Repr

/-- The line begins with the name, a colon and a blank. -/
def isHeader (pHeaderName pToken : List UInt8) : Bool :=
  pToken.length ≥ pHeaderName.length + 2 ∧ pHeaderName <+: pToken ∧
    pToken[pHeaderName.length]? = some 58 ∧ pToken[pHeaderName.length + 1]? = some 32

/-- `lLength`, the length of the value without a carriage return at its end. -/
def valueLength (pValue : List UInt8) : ℕ :=
  if pValue.length > 0 ∧ pValue.getLast? = some 13 then pValue.length - 1 else pValue.length

/-- The loop over the lines: whether the name was found, or the error that is returned. -/
def headerLoop (pHeaderName : List UInt8) : ℕ → StringTokenizer → Buffer →
    Except Fault (Except HeaderValueError Bool × StringTokenizer × Buffer)
  | 0, _, _ => .error .outOfFuel
  | fuel + 1, stStringTokenizer, pbHeaderValue => do
    let (r, stStringTokenizer) ← stStringTokenizer.nextToken none
    match r with
    | .error .stringTokenizerNoMoreToken => return (.ok false, stStringTokenizer, pbHeaderValue)
    | .error _ => return (.error .stringTokenizerNextTokenFailed, stStringTokenizer, pbHeaderValue)
    | .ok pToken =>
      if isHeader pHeaderName pToken then
        let pValue := pToken.drop (pHeaderName.length + 2)
        let (err, pbHeaderValue) ←
          pbHeaderValue.setBuffer (some (literal pValue)) (valueLength pValue)
        if err ≠ .errNoError then
          return (.error .setBufferFailed, stStringTokenizer, pbHeaderValue)
        else return (.ok true, stStringTokenizer, pbHeaderValue)
      else headerLoop pHeaderName fuel stStringTokenizer pbHeaderValue

theorem newLine_nulFree : (0 : UInt8) ∉ [10] := by decide

/-- `getHttpHeaderValue (pHeaders, pHeaderName, pbHeaderValue)`. -/
def getHttpHeaderValue (pHeaders : Option (Cells UInt8)) (pHeaderName : Option CStr)
    (pbHeaderValue : Option Buffer) : Except Fault (HeaderValueError × Option Buffer) :=
  match pHeaders, pHeaderName, pbHeaderValue with
  | some pHeaders, some pHeaderName, some b => do
    let (err, b) ← b.setBuffer (some [some 0]) (-1)
    if err ≠ .errNoError then return (.setBufferFailed, some b)
    else
      let (r, stStringTokenizer) ←
        StringTokenizer.builded.init (some pHeaders) (-1) (some ⟨[10], newLine_nulFree⟩)
      match r with
      | .error _ => return (.stringTokenizerInitFailed, some b)
      | .ok () =>
        let (found, stStringTokenizer, b) ←
          headerLoop pHeaderName.bytes (pHeaders.length + 1) stStringTokenizer b
        match found with
        | .error err => return (err, some b)
        | .ok bIsHeaderNameFound =>
          if stStringTokenizer.finish.1.isOk = false then
            return (.stringTokenizerFinishFailed, some b)
          else if !bIsHeaderNameFound then
            return (.headerNameNotFound pHeaderName.bytes, some b)
          else return (.errNoError, some b)
  | _, _, b => .ok (.activationWrong, b)

/-! ### Header blocks -/

/-- A field name: some bytes, none of them a colon, a blank or the end of a line. -/
structure FieldName where
  text : CStr
  nonempty : text.bytes ≠ []
  colonFree : 58 ∉ text.bytes
  blankFree : 32 ∉ text.bytes ∧ 9 ∉ text.bytes
  line : 10 ∉ text.bytes ∧ 13 ∉ text.bytes

/-- **A header field**: a name, behind the colon blanks, and a value. -/
structure HeaderField where
  name : FieldName
  blanks : List UInt8
  value : CStr
  blanks_blank : ∀ c ∈ blanks, c = 32 ∨ c = 9
  value_line : 10 ∉ value.bytes ∧ 13 ∉ value.bytes

/-- What follows the colon. -/
def HeaderField.behind (f : HeaderField) : List UInt8 := f.blanks ++ f.value.bytes

def HeaderField.text (f : HeaderField) : List UInt8 := f.name.text.bytes ++ 58 :: f.behind

/-- **A header block**: a start line, header fields, and perhaps the empty line behind them.  The first
word of a start line, a method or the version, has no colon. -/
structure HeaderBlock where
  startLine : CStr
  fields : List HeaderField
  closed : Bool
  startLine_line : 10 ∉ startLine.bytes ∧ 13 ∉ startLine.bytes
  startLine_word : 58 ∉ startLine.bytes.takeWhile (· ≠ 32)

namespace HeaderBlock

variable (block : HeaderBlock)

/-- The lines of a block, with their carriage returns. -/
def lines : List (List UInt8) :=
  (block.startLine.bytes ++ [13]) ::
    (block.fields.map (·.text ++ [13]) ++ if block.closed then [[13]] else [])

def text : List UInt8 := block.lines.flatMap (· ++ [10])

end HeaderBlock

/-- A field in the spelling that the code looks for. -/
def Spelled (name : FieldName) (f : HeaderField) : Prop :=
  f.name.text.bytes = name.text.bytes ∧ f.behind.head? = some 32

instance (name : FieldName) : DecidablePred (Spelled name) := fun f => by
  unfold Spelled
  infer_instance

/-- **What the search finds**: what follows the blank, in the first field of that spelling. -/
def Finds (block : HeaderBlock) (name : FieldName) (out : HeaderValueError × Option Buffer) : Prop :=
  match block.fields.find? (Spelled name ·) with
  | some f => out.1 = .errNoError ∧
      ∃ b, out.2 = some b ∧ Buffer.Simulates b (some f.behind.tail)
  | none => out.1 = .headerNameNotFound name.text.bytes ∧
      ∃ b, out.2 = some b ∧ Buffer.Simulates b (some [])

/-! ### Lines -/

theorem isHeader_iff {name token : List UInt8} :
    isHeader name token = true ↔ ∃ value, token = name ++ 58 :: 32 :: value := by
  unfold isHeader
  rw [decide_eq_true_eq]
  constructor
  · rintro ⟨hlen, ⟨rest, rfl⟩, hcolon, hblank⟩
    rw [List.getElem?_append_right (Nat.le_refl _), Nat.sub_self] at hcolon
    rw [List.getElem?_append_right (Nat.le_add_right _ _), Nat.add_sub_cancel_left] at hblank
    rcases rest with _ | ⟨c, _ | ⟨d, value⟩⟩
    · exact absurd hcolon (by simp)
    · exact absurd hblank (by simp)
    · obtain rfl : c = 58 := by simpa using hcolon
      obtain rfl : d = 32 := by simpa using hblank
      exact ⟨value, rfl⟩
  · rintro ⟨value, rfl⟩
    refine ⟨?_, List.prefix_append _ _, ?_, ?_⟩
    · simp
    · rw [List.getElem?_append_right (Nat.le_refl _), Nat.sub_self]
      rfl
    · rw [List.getElem?_append_right (Nat.le_add_right _ _), Nat.add_sub_cancel_left]
      rfl

/-- Two texts with a colon each agree up to their first colons. -/
theorem upToColon {x y u v : List UInt8} (hx : 58 ∉ x) (hy : 58 ∉ y)
    (h : x ++ 58 :: u = y ++ 58 :: v) : x = y ∧ u = v := by
  have hlen : x.length = y.length := by
    have hidx := congrArg (List.idxOf 58) h
    rwa [List.idxOf_append_of_notMem hx, List.idxOf_append_of_notMem hy, List.idxOf_cons_self,
      List.idxOf_cons_self] at hidx
  obtain ⟨rfl, htail⟩ := List.append_inj h hlen
  exact ⟨rfl, List.tail_eq_of_cons_eq htail⟩

theorem isHeader_field (name : FieldName) (f : HeaderField) :
    isHeader name.text.bytes (f.text ++ [13]) = decide (Spelled name f) := by
  rw [← Bool.coe_iff_coe, isHeader_iff, decide_eq_true_eq, HeaderField.text, List.append_assoc,
    List.cons_append]
  constructor
  · rintro ⟨value, hline⟩
    obtain ⟨hname, hbehind⟩ := upToColon f.name.colonFree name.colonFree hline
    refine ⟨hname, ?_⟩
    -- the blank is not the carriage return, so it is behind the colon
    cases hcases : f.behind with
    | nil =>
      rw [hcases] at hbehind
      exact absurd (List.cons.inj hbehind).1 (by decide)
    | cons c rest =>
      rw [hcases] at hbehind
      rw [(List.cons.inj hbehind).1, List.head?_cons]
  · rintro ⟨hname, hblank⟩
    obtain ⟨rest, hrest⟩ := List.head?_eq_some_iff.mp hblank
    exact ⟨rest ++ [13], by rw [hname, hrest]; rfl⟩

theorem not_isHeader_startLine (block : HeaderBlock) (name : FieldName) :
    isHeader name.text.bytes (block.startLine.bytes ++ [13]) = false := by
  rw [← Bool.not_eq_true, isHeader_iff]
  rintro ⟨value, hline⟩
  have hword : name.text.bytes ++ [58] <+: block.startLine.bytes.takeWhile (· ≠ 32) := by
    have hpre : name.text.bytes ++ [58] <+: block.startLine.bytes := by
      have hconcat : name.text.bytes ++ [58] <+: block.startLine.bytes ++ [13] :=
        ⟨32 :: value, by rw [hline]; simp⟩
      refine (List.prefix_concat_iff.mp hconcat).resolve_left fun heq => ?_
      exact absurd (List.append_inj' heq rfl).2 (by decide)
    have hall : ∀ c ∈ name.text.bytes ++ [58], decide (c ≠ 32) = true := by
      intro c hc
      rcases List.mem_append.mp hc with hc | hc
      · exact decide_eq_true fun h => name.blankFree.1 (h ▸ hc)
      · rw [List.mem_singleton.mp hc]
        rfl
    obtain ⟨rest, hrest⟩ := hpre
    rw [← hrest, List.takeWhile_append_of_pos hall]
    exact List.prefix_append _ _
  exact block.startLine_word (hword.subset (by simp))

theorem not_isHeader_end (name : FieldName) : isHeader name.text.bytes [13] = false := by
  rw [← Bool.not_eq_true, isHeader_iff]
  rintro ⟨value, hline⟩
  have hlen := congrArg List.length hline
  simp only [List.length_append, List.length_cons, List.length_nil] at hlen
  omega

/-- The search of the lines is a search of the fields. -/
theorem find_lines (block : HeaderBlock) (name : FieldName) :
    block.lines.find? (isHeader name.text.bytes)
      = (block.fields.find? (Spelled name ·)).map (·.text ++ [13]) := by
  have hend : (if block.closed then [[13]] else []).find? (isHeader name.text.bytes) = none := by
    cases block.closed with
    | false => rfl
    | true => simp [not_isHeader_end]
  have hfields : (isHeader name.text.bytes ∘ fun f : HeaderField => f.text ++ [13])
      = fun f => decide (Spelled name f) := by
    funext f
    exact isHeader_field name f
  rw [HeaderBlock.lines, List.find?_cons_of_neg (by simp [not_isHeader_startLine]),
    List.find?_append, hend, Option.or_none, List.find?_map, hfields]

/-! ### The loop -/

/-- What stands in front of a carriage return at the end of a line. -/
theorem valueLength_concat (value : List UInt8) : valueLength (value ++ [13]) = value.length := by
  unfold valueLength
  rw [if_pos (by simp), List.length_append, List.length_singleton, Nat.add_sub_cancel]

/-- The carriage return is behind the blank. -/
theorem exists_value {name x : List UInt8} (h : isHeader name (x ++ [13]) = true) :
    ∃ y, (x ++ [13]).drop (name.length + 2) = y ++ [13] := by
  obtain ⟨value, hvalue⟩ := isHeader_iff.mp h
  have hdrop : (x ++ [13]).drop (name.length + 2) = value := by
    rw [hvalue, ← List.drop_drop, List.drop_left]
    rfl
  have hend : (58 :: 32 :: value).getLast? = some 13 := by
    have hlast := congrArg List.getLast? hvalue
    rwa [List.getLast?_concat, List.getLast?_append_of_ne_nil _ (by simp), eq_comm] at hlast
  rw [hdrop]
  cases value using List.reverseRecOn with
  | nil => exact absurd hend (by decide)
  | append_singleton y c =>
    rw [← List.cons_append, ← List.cons_append, List.getLast?_concat] at hend
    exact ⟨y, by rw [Option.some.inj hend]⟩

/-- **The loop over lines**: the value behind the first one that matches. -/
theorem headerLoop_finds (name : List UInt8) {s : List UInt8} {lines : List (List UInt8)}
    (hlines : ∀ line ∈ lines, 10 ∉ line ∧ 0 ∉ line ∧ ∃ x, line = x ++ [13]) {fuel : ℕ}
    (hfuel : lines.length < fuel) {t : StringTokenizer} (hinit : t.Initialized s)
    (hreads : t.Reads (lines.flatMap (· ++ [10]))) (hdelimits : t.pDefaultDelimits = [10])
    {b : Buffer} (hb : Buffer.Simulates b (some [])) :
    headerLoop name fuel t b = .error .badAlloc ∨
      ∃ t' b', t'.Initialized s ∧
        match lines.find? (isHeader name) with
        | none => headerLoop name fuel t b = .ok (.ok false, t', b') ∧
            Buffer.Simulates b' (some [])
        | some line => headerLoop name fuel t b = .ok (.ok true, t', b') ∧
            Buffer.Simulates b' (some (line.drop (name.length + 2)).dropLast) := by
  induction fuel generalizing lines t with
  | zero => exact absurd hfuel (Nat.not_lt_zero _)
  | succ fuel ih =>
    obtain ⟨t', hnext, hinit', hreads', hdelimits'⟩ := StringTokenizer.nextToken_reads hinit hreads none
    have hset : t.delimitsOf none = [10] := hdelimits
    rw [hset] at hnext hreads'
    unfold headerLoop
    cases lines with
    | nil =>
      have hanswer : StringTokenizer.answerOf [10] ([].flatMap fun line => line ++ [10])
          = (.error .stringTokenizerNoMoreToken, []) := rfl
      rw [hanswer] at hnext
      rw [hnext]
      exact Or.inr ⟨t', b, hinit', rfl, hb⟩
    | cons line lines =>
      obtain ⟨⟨hten, hzero, x, rfl⟩, hrest⟩ := List.forall_mem_cons.mp hlines
      have hcut : cutToken [10] (((x ++ [13]) :: lines).flatMap (· ++ [10]))
          = some (x ++ [13], lines.flatMap (· ++ [10])) := by
        have hfree : ∀ c ∈ x ++ [13], c ∉ [(10 : UInt8)] := fun c hc h =>
          hten (List.mem_singleton.mp h ▸ hc)
        have hhead := cutToken_append_cons hfree (by simp) (d := 10) (by simp)
          (lines.flatMap (· ++ [10]))
        rwa [List.flatMap_cons, List.append_assoc (x ++ [13])]
      have hanswer : StringTokenizer.answerOf [10] (((x ++ [13]) :: lines).flatMap (· ++ [10]))
          = (.ok (x ++ [13]), lines.flatMap (· ++ [10])) := by
        rw [StringTokenizer.answerOf, hcut]
      rw [hanswer] at hnext hreads'
      rw [hnext, ok_bind]
      dsimp only
      cases hmatch : isHeader name (x ++ [13]) with
      | false =>
        rw [if_neg (by simp), List.find?_cons_of_neg (by simp [hmatch])]
        exact ih hrest (by simpa using hfuel) hinit' hreads' (hdelimits'.trans hdelimits)
      | true =>
        rw [if_pos rfl, List.find?_cons_of_pos hmatch]
        dsimp only
        obtain ⟨y, hy⟩ := exists_value hmatch
        have hfree : 0 ∉ y ++ [13] := fun h0 => hzero (List.mem_of_mem_drop (hy ▸ h0))
        have hsetb := Buffer.setBuffer_part (Or.inr ⟨[], hb.1⟩) (literal_holds_string hfree)
          (n := y.length) (by simp)
        rw [List.take_left] at hsetb
        rw [hy, valueLength_concat, List.dropLast_concat]
        rcases hsetb with hbad | ⟨b', hb', hsim⟩
        · exact Or.inl (by rw [hbad, error_bind])
        · exact Or.inr ⟨t', b', hinit', by rw [hb', ok_bind]; rfl, hsim⟩

/-! ### The search of a block -/

namespace HeaderBlock

variable (block : HeaderBlock)

theorem lines_wellFormed : ∀ line ∈ block.lines, 10 ∉ line ∧ 0 ∉ line ∧ ∃ x, line = x ++ [13] := by
  have hline : ∀ {x : List UInt8}, 10 ∉ x → 0 ∉ x →
      10 ∉ x ++ [13] ∧ 0 ∉ x ++ [13] ∧ ∃ y, x ++ [13] = y ++ [13] := by
    intro x hten hzero
    refine ⟨?_, ?_, x, rfl⟩
    · simpa using hten
    · simpa using hzero
  intro line h
  rcases List.mem_cons.mp h with rfl | h
  · exact hline block.startLine_line.1 block.startLine.nulFree
  rcases List.mem_append.mp h with h | h
  · obtain ⟨f, -, rfl⟩ := List.mem_map.mp h
    have hblanks : ∀ c ∈ f.blanks, c ≠ 10 ∧ c ≠ 0 := fun c hc => by
      rcases f.blanks_blank c hc with rfl | rfl <;> decide
    refine hline ?_ ?_
    · simp only [HeaderField.text, HeaderField.behind, List.mem_append, List.mem_cons, not_or]
      exact ⟨f.name.line.1, by decide, fun h => (hblanks 10 h).1 rfl, f.value_line.1⟩
    · simp only [HeaderField.text, HeaderField.behind, List.mem_append, List.mem_cons, not_or]
      exact ⟨f.name.text.nulFree, by decide, fun h => (hblanks 0 h).2 rfl, f.value.nulFree⟩
  · cases hclosed : block.closed with
    | false => exact absurd h (by simp [hclosed])
    | true =>
      obtain rfl : line = [13] := by simpa [hclosed] using h
      exact hline (x := []) List.not_mem_nil List.not_mem_nil

theorem text_nulFree : 0 ∉ block.text := by
  intro h
  obtain ⟨line, hline, h⟩ := List.mem_flatMap.mp h
  rcases List.mem_append.mp h with h | h
  · exact (block.lines_wellFormed line hline).2.1 h
  · exact absurd h (by decide)

theorem length_lines_le : block.lines.length ≤ block.text.length := by
  unfold text
  induction block.lines with
  | nil => exact Nat.zero_le _
  | cons line lines ih =>
    rw [List.flatMap_cons, List.length_append, List.length_append, List.length_singleton,
      List.length_cons]
    omega

end HeaderBlock

theorem getHttpHeaderValue_computes (block : HeaderBlock) (name : FieldName) {m : Cells UInt8}
    (hm : Holds m block.text) {b : Buffer} (hb : Usable b) :
    getHttpHeaderValue (some m) (some name.text) (some b) = .error .badAlloc ∨
      ∃ out, getHttpHeaderValue (some m) (some name.text) (some b) = .ok out ∧
        Finds block name out := by
  unfold getHttpHeaderValue
  dsimp only
  rcases Buffer.setBuffer_clears hb with hbad | ⟨b₁, hb₁, hsim⟩
  · exact Or.inl (by rw [hbad, error_bind])
  obtain ⟨t, hinit, hfresh, hdelimits⟩ := StringTokenizer.init_fresh hm ⟨[10], by decide⟩
  rw [hb₁, ok_bind]
  dsimp only
  rw [if_neg (by simp), hinit, ok_bind]
  dsimp only
  have hfuel : block.lines.length < m.length + 1 :=
    Nat.lt_succ_of_le (block.length_lines_le.trans hm.length_lt.le)
  rcases headerLoop_finds name.text.bytes block.lines_wellFormed hfuel hfresh.toInitialized
    hfresh.reads hdelimits hsim with hbad | ⟨t', b', hinit', hfound⟩
  · exact Or.inl (by rw [hbad, error_bind])
  have hfinish : t'.finish.1.isOk = true := by
    rw [StringTokenizer.finish, if_neg (by simp [hinit'.status])]
    rfl
  rw [find_lines] at hfound
  refine Or.inr ?_
  unfold Finds
  cases hfind : block.fields.find? (Spelled name ·) with
  | none =>
    rw [hfind] at hfound
    obtain ⟨hloop, hsim'⟩ := hfound
    refine ⟨(.headerNameNotFound name.text.bytes, some b'), ?_, rfl, b', rfl, hsim'⟩
    rw [hloop, ok_bind]
    dsimp only
    rw [if_neg (by simp [hfinish])]
    rfl
  | some f =>
    rw [hfind] at hfound
    obtain ⟨hloop, hsim'⟩ := hfound
    have hspelled : Spelled name f := by simpa using List.find?_some hfind
    have hvalue : ((f.text ++ [13]).drop (name.text.bytes.length + 2)).dropLast = f.behind.tail := by
      obtain ⟨rest, hrest⟩ := List.head?_eq_some_iff.mp hspelled.2
      rw [HeaderField.text, hspelled.1, hrest, ← List.drop_drop, List.append_assoc, List.drop_left]
      exact List.dropLast_concat
    rw [hvalue] at hsim'
    refine ⟨(.errNoError, some b'), ?_, rfl, b', rfl, hsim'⟩
    rw [hloop, ok_bind]
    dsimp only
    rw [if_neg (by simp [hfinish])]
    rfl

/-- **`getHttpHeaderValue` finds the fields in its own spelling**, in every header block. -/
theorem getHttpHeaderValue_finds (block : HeaderBlock) (name : FieldName) {m : Cells UInt8}
    (hm : Holds m block.text) {b : Buffer} (hb : Usable b) :
    getHttpHeaderValue (some m) (some name.text) (some b) = .error .badAlloc ∨
      ∃ out, getHttpHeaderValue (some m) (some name.text) (some b) = .ok out ∧
        Finds block name out :=
  getHttpHeaderValue_computes block name hm hb

/-! ### Other spellings -/

/-- `tolower`. -/
def lower (c : UInt8) : UInt8 := if 65 ≤ c ∧ c ≤ 90 then c + 32 else c

/-- A field whose name is the given one, ignoring case. -/
def SameName (name : FieldName) (f : HeaderField) : Prop :=
  f.name.text.bytes.map lower = name.text.bytes.map lower

instance (name : FieldName) : DecidablePred (SameName name) := fun f => by
  unfold SameName
  infer_instance

def isBlank (c : UInt8) : Bool := c = 32 ∨ c = 9

/-- A value without surrounding blanks. -/
def trimmed (value : List UInt8) : List UInt8 := (value.dropWhile isBlank).rdropWhile isBlank

/-- **The search that reads all spellings alike**: the value of the first field with the name,
ignoring case, without surrounding blanks. -/
def Lookup (block : HeaderBlock) (name : FieldName) (out : HeaderValueError × Option Buffer) : Prop :=
  match block.fields.find? (SameName name ·) with
  | some f => out.1 = .errNoError ∧
      ∃ b, out.2 = some b ∧ Buffer.Simulates b (some (trimmed f.value.bytes))
  | none => out.1 = .headerNameNotFound name.text.bytes

/-- Where a search does both, they find the same value, or none. -/
theorem found_eq_of_lookup {block : HeaderBlock} {name : FieldName}
    {out : HeaderValueError × Option Buffer} (h : Finds block name out) (h' : Lookup block name out) :
    (block.fields.find? (Spelled name ·)).map (·.behind.tail)
      = (block.fields.find? (SameName name ·)).map (trimmed ·.value.bytes) := by
  unfold Finds at h
  unfold Lookup at h'
  cases hf : block.fields.find? (Spelled name ·) with
  | none =>
    cases hf' : block.fields.find? (SameName name ·) with
    | none => rfl
    | some f' =>
      rw [hf] at h
      rw [hf'] at h'
      exact absurd (h.1.symm.trans h'.1) (by simp)
  | some f =>
    cases hf' : block.fields.find? (SameName name ·) with
    | none =>
      rw [hf] at h
      rw [hf'] at h'
      exact absurd (h.1.symm.trans h') (by simp)
    | some f' =>
      rw [hf] at h
      rw [hf'] at h'
      obtain ⟨-, b, hb, hsim⟩ := h
      obtain ⟨-, b', hb', hsim'⟩ := h'
      obtain rfl : b = b' := Option.some.inj (hb.symm.trans hb')
      exact congrArg some ((str_holds hsim).unique (str_holds hsim'))

/-- The name `Age`. -/
def ageName : FieldName := ⟨⟨[65, 103, 101], by decide⟩, by decide, by decide, by decide, by decide⟩

/-- The name `age`. -/
def lowerAgeName : FieldName :=
  ⟨⟨[97, 103, 101], by decide⟩, by decide, by decide, by decide, by decide⟩

/-- A response with one field. -/
def oneField (f : HeaderField) : HeaderBlock where
  startLine := ⟨bytesOf "HTTP/1.1 200 OK", by decide⟩
  fields := [f]
  closed := true
  startLine_line := by decide
  startLine_word := by decide

/-- The value `7` in four spellings: the name in small letters, no blank behind the colon, two blanks
there, a blank at the end. -/
def spellings : List HeaderField :=
  [⟨lowerAgeName, [32], ⟨[55], by decide⟩, by simp, by decide⟩,
    ⟨ageName, [], ⟨[55], by decide⟩, by simp, by decide⟩,
    ⟨ageName, [32, 32], ⟨[55], by decide⟩, by simp, by decide⟩,
    ⟨ageName, [32], ⟨[55, 32], by decide⟩, by simp, by decide⟩]

/-- The value `7` in the spelling that the code looks for. -/
def ageField : HeaderField := ⟨ageName, [32], ⟨[55], by decide⟩, by simp, by decide⟩

theorem getHttpHeaderValue_finds_age :
    getHttpHeaderValue (some (literal (oneField ageField).text)) (some ageName.text) (some .built)
        = .error .badAlloc ∨
      ∃ out, getHttpHeaderValue (some (literal (oneField ageField).text)) (some ageName.text)
          (some .built) = .ok out ∧ Finds (oneField ageField) ageName out :=
  getHttpHeaderValue_finds (oneField ageField) ageName
    (literal_holds_string (oneField ageField).text_nulFree) (Or.inl Buffer.built_idle)

/-- **None of the four spellings is read as the others are.** -/
theorem not_lookup_of_spellings : spellings.Forall fun f =>
    ∃ out, getHttpHeaderValue (some (literal (oneField f).text)) (some ageName.text) (some .built)
        = .ok out ∧ ¬Lookup (oneField f) ageName out := by
  have hok : ∀ f ∈ spellings, (getHttpHeaderValue (some (literal (oneField f).text))
      (some ageName.text) (some .built)).isOk = true := by decide
  have hdiffer : ∀ f ∈ spellings, ((oneField f).fields.find? (Spelled ageName ·)).map (·.behind.tail)
      ≠ ((oneField f).fields.find? (SameName ageName ·)).map (trimmed ·.value.bytes) := by decide
  refine List.forall_iff_forall_mem.mpr fun f hf => ?_
  rcases getHttpHeaderValue_computes (oneField f) ageName
    (literal_holds_string (oneField f).text_nulFree) (Or.inl Buffer.built_idle) with
    hbad | ⟨out, hout, hfinds⟩
  · have h := hok f hf
    rw [hbad] at h
    exact absurd h (by simp [Except.isOk, Except.toBool])
  · exact ⟨out, hout, fun h => hdiffer f hf (found_eq_of_lookup hfinds h)⟩

end WebUtility

end CatraLibraries
