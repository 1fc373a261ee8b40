/-
# The parameters of a URL

`WebTools/src/WebUtility.cpp`, `addURLParameter` and `getURLParameterValue`.  The first writes
one more `name=value` behind the parameters that a buffer holds, with the value encoded; the
second looks for a name between a `?` or `&` and one of `=`, `&` and the end of the URL, and
decodes what follows up to the next `&`.

A buffer goes through five calls for each parameter.  What they amount to on its string is
`withParameter`, and a whole list of parameters gives a `query`.
-/
import CatraLibraries.Lib.Substring
import CatraLibraries.WebTools.UrlRoundTrip

namespace CatraLibraries

open Memory CString Substring

/-- `str ()`: the string of a buffer, or the empty one. -/
def Buffer.str (b : Buffer) : Cells UInt8 :=
  if b.bsBufferStatus ≠ .initialized then [some 0] else b.pBuffer

/-- The codes that `addURLParameter` returns. -/
inductive UrlParameterError
  | errNoError
  | bufferInitFailed
  | bufferAppendFailed
  | encodeUrlFailed
  deriving DecidableEq, Repr

namespace WebUtility

/-! ### addURLParameter -/

/-- What separates the next parameter from those already there. -/
def separator (found : Bool) : List UInt8 := if found then [38] else [63]

/-- `addURLParameter (pbURLParameters, pURLParameterName, pURLParameterValue,
ulTruncateEncodedValueIfBiggerThen)`. -/
def addURLParameter (pbURLParameters : Buffer) (pURLParameterName pURLParameterValue : Cells UInt8)
    (ulTruncateEncodedValueIfBiggerThen : Nat) :
    Except Fault (UrlParameterError × Buffer) := do
  let question ← strchr pbURLParameters.str 63
  let (err, pbURLParameters) ←
    pbURLParameters.append (some (literal (separator question.isSome))) (-1)
  if err ≠ .errNoError then return (.bufferAppendFailed, pbURLParameters)
  else
    let (err, pbURLParameters) ← pbURLParameters.append (some pURLParameterName) (-1)
    if err ≠ .errNoError then return (.bufferAppendFailed, pbURLParameters)
    else
      let (err, pbURLParameters) ← pbURLParameters.append (some (literal [61])) (-1)
      if err ≠ .errNoError then return (.bufferAppendFailed, pbURLParameters)
      else
        let (err, bEncodedValue) ← Buffer.built.initEmpty
        if err ≠ .errNoError then return (.bufferInitFailed, pbURLParameters)
        else
          let (err, bEncodedValue) ← encodeURL (some pURLParameterValue) (some bEncodedValue)
            ulTruncateEncodedValueIfBiggerThen false
          if err ≠ .errNoError then return (.encodeUrlFailed, pbURLParameters)
          else
            let (err, pbURLParameters) ←
              pbURLParameters.append (bEncodedValue.map Buffer.str) (-1)
            if err ≠ .errNoError then return (.bufferAppendFailed, pbURLParameters)
            else return (.errNoError, pbURLParameters)

/-- A value as it stands in a URL. -/
def encodedValue (value : List UInt8) : List UInt8 := value.flatMap (encodedText false)

/-- A parameter as it stands in a URL. -/
def parameterText (name value : List UInt8) : List UInt8 := name ++ [61] ++ encodedValue value

/-- The string of the buffer after `addURLParameter`. -/
def withParameter (params name value : List UInt8) : List UInt8 :=
  params ++ separator (decide (63 ∈ params)) ++ parameterText name value

/-- A list of parameters written one behind the other into an empty buffer. -/
def query (parameters : List (List UInt8 × List UInt8)) : List UInt8 :=
  parameters.foldl (fun params p => withParameter params p.1 p.2) []

/-- Once there is a `?`, each parameter goes behind an `&`. -/
theorem foldl_withParameter (parameters : List (List UInt8 × List UInt8)) {params : List UInt8}
    (h : 63 ∈ params) :
    parameters.foldl (fun params p => withParameter params p.1 p.2) params
      = params ++ parameters.flatMap fun p => 38 :: parameterText p.1 p.2 := by
  induction parameters generalizing params with
  | nil => rw [List.foldl_nil, List.flatMap_nil, List.append_nil]
  | cons p parameters ih =>
    have hone : withParameter params p.1 p.2 = params ++ 38 :: parameterText p.1 p.2 := by
      rw [withParameter, decide_eq_true h, List.append_assoc]
      rfl
    rw [List.foldl_cons, ih (by rw [hone]; exact List.mem_append_left _ h), hone,
      List.flatMap_cons, List.append_assoc]

theorem query_cons (p : List UInt8 × List UInt8) (parameters : List (List UInt8 × List UInt8)) :
    query (p :: parameters)
      = 63 :: parameterText p.1 p.2
          ++ parameters.flatMap fun p => 38 :: parameterText p.1 p.2 := by
  have hone : withParameter [] p.1 p.2 = 63 :: parameterText p.1 p.2 := rfl
  rw [query, List.foldl_cons, foldl_withParameter _ (by rw [hone]; exact List.mem_cons_self),
    hone]

theorem encodedText_ne_nil (bAscii : Bool) (c : UInt8) : encodedText bAscii c ≠ [] := by
  unfold encodedText
  split_ifs <;> simp

theorem encodedValue_eq_nil {value : List UInt8} : encodedValue value = [] ↔ value = [] := by
  refine ⟨fun h => ?_, fun h => by rw [h]; rfl⟩
  cases value with
  | nil => rfl
  | cons c value =>
    rw [encodedValue, List.flatMap_cons, List.append_eq_nil_iff] at h
    exact absurd h.1 (encodedText_ne_nil false c)

/-! ### The buffer refines its string -/

/-- A string and its NUL. -/
theorem literal_holds_string {s : List UInt8} (hs : 0 ∉ s) : Holds (literal s) s :=
  ⟨hs, [], rfl⟩

theorem separator_nulFree (found : Bool) : 0 ∉ separator found := by
  cases found <;> decide

theorem str_holds {b : Buffer} {s : List UInt8} (h : Buffer.Simulates b (some s)) :
    Holds b.str s := by
  rw [Buffer.str, if_neg (by simp [h.1.status])]
  exact h.1.holds h.2

theorem isSome_strchr {m : Cells UInt8} {s : List UInt8} (h : Holds m s) {c : UInt8}
    (hc : c ≠ 0) : ∃ r, strchr m c = .ok r ∧ r.isSome = decide (c ∈ s) := by
  by_cases hmem : c ∈ s
  · exact ⟨_, by rw [h.strchr_eq, if_neg hc, if_pos hmem], by simp [hmem]⟩
  · exact ⟨_, h.strchr_none hc hmem, by simp [hmem]⟩

/-- **`addURLParameter` on a buffer** that holds a string: one more parameter behind it. -/
theorem addURLParameter_simulates {b : Buffer} {params : List UInt8}
    (hb : Buffer.Simulates b (some params)) (name value : CStr) :
    addURLParameter b name.cells value.cells noTruncation = .error .badAlloc ∨
      ∃ b', addURLParameter b name.cells value.cells noTruncation = .ok (.errNoError, b') ∧
        Buffer.Simulates b' (some (withParameter params name.bytes value.bytes)) := by
  obtain ⟨question, hquestion, hfound⟩ := isSome_strchr (str_holds hb) (c := 63) (by decide)
  unfold addURLParameter
  rw [hquestion, ok_bind, hfound]
  rcases Buffer.append_simulates hb.1 hb.2 (literal_holds_string (separator_nulFree _)) with
    hbad | ⟨b₁, hb₁, h₁⟩
  · exact Or.inl (by rw [hbad, error_bind])
  rw [hb₁, ok_bind]
  dsimp only
  rw [if_neg (by simp)]
  rcases Buffer.append_simulates h₁.1 h₁.2 name.holds with hbad | ⟨b₂, hb₂, h₂⟩
  · exact Or.inl (by rw [hbad, error_bind])
  rw [hb₂, ok_bind]
  dsimp only
  rw [if_neg (by simp)]
  rcases Buffer.append_simulates h₂.1 h₂.2
    (literal_holds_string (s := [61]) (by decide)) with hbad | ⟨b₃, hb₃, h₃⟩
  · exact Or.inl (by rw [hbad, error_bind])
  rw [hb₃, ok_bind]
  dsimp only
  rw [if_neg (by simp)]
  rcases Buffer.initEmpty_spec Buffer.built_idle with hbad | ⟨e₁, he₁, hc₁⟩
  · exact Or.inl (by rw [hbad, error_bind])
  rw [he₁, ok_bind]
  dsimp only
  rw [if_neg (by simp)]
  have hencode := encodeURL_fills value noTruncation false (Or.inr ⟨[], hc₁⟩)
  rw [encodedPart_noTruncation] at hencode
  rcases hencode with hbad | ⟨e₂, he₂, hsim⟩
  · exact Or.inl (by rw [hbad, error_bind])
  rw [he₂, ok_bind]
  dsimp only
  rw [if_neg (by simp), Option.map_some]
  rcases Buffer.append_simulates h₃.1 h₃.2 (str_holds hsim) with hbad | ⟨b₄, hb₄, h₄⟩
  · exact Or.inl (by rw [hbad, error_bind])
  refine Or.inr ⟨b₄, by rw [hb₄, ok_bind]; rfl, ?_⟩
  rw [withParameter, parameterText, encodedValue]
  simpa only [List.append_assoc] using h₄

/-! ### getURLParameterValue -/

/-- Whether the character behind a name ends it: `=`, the NUL or `&`. -/
def endsName (pBeginParameterValue : List UInt8) : Bool :=
  match pBeginParameterValue.head? with
  | none => true
  | some c => c == 61 || c == 38

/-- Whether a name found at `i` starts a parameter; at the start of the part searched it never
does. -/
def startsName (pLocalURL : List UInt8) (i : Nat) : Bool :=
  i != 0 && (pLocalURL[i - 1]? == some 63 || pLocalURL[i - 1]? == some 38)

/-- The loop `while (!bParameterFound)`: what follows the name, where it is found. -/
def findParameter (pURLParameterName : List UInt8) :
    Nat → List UInt8 → Except Fault (Option (List UInt8))
  | 0, _ => .error .outOfFuel
  | fuel + 1, pLocalURL =>
    match findSub pURLParameterName pLocalURL with
    | none => .ok none
    | some i =>
      let pBeginParameterValue := pLocalURL.drop (i + pURLParameterName.length)
      if endsName pBeginParameterValue ∧ startsName pLocalURL i then
        .ok (some pBeginParameterValue)
      else findParameter pURLParameterName fuel pBeginParameterValue

/-- `getURLParameterValue (pURL, pURLParameterName, pURLParameterValue, ulBufferLength)`.  The
decoder empties the array before it writes, so that the array is as good as new. -/
def getURLParameterValue (pURL pURLParameterName : List UInt8) (ulBufferLength : Nat) :
    Except Fault (UrlError × List UInt8) := do
  match ← findParameter pURLParameterName (pURL.length + 1) pURL with
  | none => return (.activationWrong, [])
  | some [] => return (.errNoError, [])
  | some (c :: pBeginParameterValue) =>
    if c ≠ 61 then return (.errNoError, [])
    else
      let value := pBeginParameterValue.takeWhile (· ≠ 38)
      if value.length ≥ ulBufferLength then
        return (.bufferTooShort ulBufferLength value.length, [])
      else
        match ← decodeURL (some (literal value))
          (some (.array (List.replicate ulBufferLength none) ulBufferLength)) with
        | (.errNoError, some (.array pURLParameterValue _)) =>
          return (.errNoError, ← cstr pURLParameterValue)
        | (err, _) => return (err, [])

end WebUtility

end CatraLibraries
