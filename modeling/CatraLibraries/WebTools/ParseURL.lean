/-
# The parts of a URL

`WebUtility::parseURL` (`WebTools/src/WebUtility.cpp`) cuts a URL with a `StringTokenizer`: the
protocol and the server end at a slash, the relative path at a question mark, and the parameters
are what is left.  The tokenizer leaves out the delimiters before a token as well, so that several
slashes count as one, and a path may begin behind question marks.
-/
import CatraLibraries.Tools.StringTokenizer
import CatraLibraries.Lib.Stdio

namespace CatraLibraries

open Memory CString

namespace WebUtility

/-- The errors that `parseURL` returns. -/
inductive ParseURLError
  | activationWrong
  | stringTokenizerInitFailed
  | stringTokenizerNextTokenFailed
  deriving DecidableEq, Repr

/-- What `parseURL` gives its caller. -/
structure ParsedURL where
  pServer : List UInt8
  lPort : Int
  bRelativePathWithoutParameters : List UInt8
  bURLParameters : List UInt8
  deriving DecidableEq, Repr

/-- The literal `"/"`. -/
def slash : CStr := ⟨[47], by decide⟩

/-- The literal `"?"`. -/
def questionMark : CStr := ⟨[63], by decide⟩

/-- `atol` of a text of bytes. -/
def atol (text : List UInt8) : Int := Stdio.atol (text.map fun b => Char.ofNat b.toNat)

/-- `Server[:port]`; `none` when the buffer of the caller is too short.  The length of a buffer is
below `2 ^ 63`, so the cast to `long` in the first comparison keeps it. -/
def serverAndPort (pToken : List UInt8) (ulServerBufferLength : Nat) : Option (List UInt8 × Int) :=
  match pToken.idxOf? 58 with
  | some pColon =>
    if pColon + 1 > ulServerBufferLength then none
    else some (pToken.take pColon, atol (pToken.drop (pColon + 1)))
  | none =>
    if pToken.length + 1 > ulServerBufferLength then none
    else some (pToken, -1)

/-- A call of `nextToken` that must find a token. -/
def withToken {α : Type} (pCurrentDelimits : Option CStr) (stURLTokenizer : StringTokenizer)
    (go : List UInt8 → StringTokenizer → Except Fault (Except ParseURLError α)) :
    Except Fault (Except ParseURLError α) := do
  let (errNextToken, stURLTokenizer) ← stURLTokenizer.nextToken pCurrentDelimits
  match errNextToken with
  | .error _ => return .error .stringTokenizerNextTokenFailed
  | .ok pToken => go pToken stURLTokenizer

theorem empty_nulFree : (0 : UInt8) ∉ [] := by decide

/-- The `<parameters>` of the URL: none when there is no token left. -/
def parameters (stURLTokenizer : StringTokenizer) :
    Except Fault (Except ParseURLError (List UInt8)) := do
  let (errNextToken, _) ← stURLTokenizer.nextToken (some ⟨[], empty_nulFree⟩)
  match errNextToken with
  | .error .stringTokenizerNoMoreToken => return .ok []
  | .error _ => return .error .stringTokenizerNextTokenFailed
  | .ok pToken => return .ok (63 :: pToken)

/-- `parseURL`. -/
def parseURL (pURL : CStr) (ulServerBufferLength : Nat) :
    Except Fault (Except ParseURLError ParsedURL) := do
  let (err, stURLTokenizer) ← StringTokenizer.builded.init (some pURL.cells) (-1) (some slash)
  match err with
  | .error _ => return .error .stringTokenizerInitFailed
  | .ok () =>
    withToken none stURLTokenizer fun _ stURLTokenizer =>
      withToken none stURLTokenizer fun pToken stURLTokenizer =>
        match serverAndPort pToken ulServerBufferLength with
        | none => return .error .activationWrong
        | some (pServer, lPort) =>
          withToken (some questionMark) stURLTokenizer fun pToken stURLTokenizer => do
            match ← parameters stURLTokenizer with
            | .error e => return .error e
            | .ok bURLParameters => return .ok ⟨pServer, lPort, 47 :: pToken, bURLParameters⟩

/-! ### What it finds -/

/-- The text behind the path, with its question mark. -/
def parametersOf (rest : List UInt8) : List UInt8 :=
  match cutToken [] rest with
  | none => []
  | some (pToken, _) => 63 :: pToken

/-- The parts of a URL. -/
def partsOf (pURL : List UInt8) (ulServerBufferLength : Nat) : Except ParseURLError ParsedURL :=
  match cutToken [47] pURL with
  | none => .error .stringTokenizerNextTokenFailed
  | some (_, rest) =>
    match cutToken [47] rest with
    | none => .error .stringTokenizerNextTokenFailed
    | some (pToken, rest) =>
      match serverAndPort pToken ulServerBufferLength with
      | none => .error .activationWrong
      | some (pServer, lPort) =>
        match cutToken [63] rest with
        | none => .error .stringTokenizerNextTokenFailed
        | some (pToken, rest) => .ok ⟨pServer, lPort, 47 :: pToken, parametersOf rest⟩

variable {s rest token : List UInt8} {t : StringTokenizer} {d : CStr} {m : Cells UInt8}

/-- `init` of a new object with a string. -/
theorem init_fresh (h : Holds m s) (d : CStr) :
    ∃ t, StringTokenizer.builded.init (some m) (-1) (some d) = .ok (.ok (), t) ∧ t.Fresh s ∧
      t.pDefaultDelimits = d.bytes := by
  have hcells := h.strncpyCells_eq (Nat.le_refl s.length)
  rw [List.take_length] at hcells
  obtain ⟨m₁, m₂, hwrite, hstore, -, hm₂⟩ := store_after_writeAt (s := []) (t := s)
    (x := List.replicate (s.length + 1) none) (by simp) h.nulFree (by simp)
  rw [List.map_nil, List.nil_append, List.length_nil] at hwrite
  rw [List.length_nil, Nat.zero_add] at hstore
  rw [List.nil_append] at hm₂
  obtain ⟨m₃, hcopy, -, hm₃, -⟩ := hm₂.strcpy_eq (List.replicate (s.length + 1) none) (by simp)
  refine ⟨⟨.initialized, m₂, m₃, d.bytes, true, .unset⟩, ?_, ⟨⟨rfl, hm₂⟩, rfl, hm₃⟩, rfl⟩
  unfold StringTokenizer.init
  dsimp only
  rw [if_neg (by simp), if_neg (by simp [StringTokenizer.builded]), if_pos rfl, h.strlen_eq, ok_bind]
  unfold strncpy
  rw [hcells, ok_bind, hwrite, ok_bind, hstore, ok_bind, hcopy, ok_bind]
  rfl

/-- A call finds the token that `cutToken` cuts, and the tokenizer goes on behind it. -/
theorem withToken_of_cut (α : Type) (dOpt : Option CStr)
    (go : List UInt8 → StringTokenizer → Except Fault (Except ParseURLError α))
    (hinit : t.Initialized s) (hreads : t.Reads rest) :
    (cutToken (t.delimitsOf dOpt) rest = none →
      withToken dOpt t go = .ok (.error .stringTokenizerNextTokenFailed)) ∧
    ∀ pToken rest', cutToken (t.delimitsOf dOpt) rest = some (pToken, rest') →
      ∃ t', withToken dOpt t go = go pToken t' ∧ t'.Initialized s ∧ t'.Reads rest' ∧
        t'.pDefaultDelimits = t.pDefaultDelimits := by
  obtain ⟨t', hnext, hinit', hreads', hdefault⟩ := StringTokenizer.nextToken_reads hinit hreads dOpt
  constructor
  · intro hcut
    unfold withToken
    rw [hnext, ok_bind]
    unfold StringTokenizer.answerOf
    rw [hcut]
    rfl
  · intro pToken rest' hcut
    unfold StringTokenizer.answerOf at hnext hreads'
    rw [hcut] at hnext hreads'
    refine ⟨t', ?_, hinit', hreads', hdefault⟩
    unfold withToken
    rw [hnext]
    rfl

theorem parameters_eq (hinit : t.Initialized s) (hreads : t.Reads rest) :
    parameters t = .ok (.ok (parametersOf rest)) := by
  obtain ⟨t', hnext, -⟩ := StringTokenizer.nextToken_reads hinit hreads (some ⟨[], by decide⟩)
  unfold parameters parametersOf
  rw [hnext, ok_bind]
  show (match (StringTokenizer.answerOf [] rest).1 with
    | .error .stringTokenizerNoMoreToken => _
    | .error _ => _
    | .ok pToken => _) = _
  unfold StringTokenizer.answerOf
  cases cutToken [] rest with
  | none => rfl
  | some cut => rfl

/-- **`parseURL`** finds the parts of the URL. -/
theorem parseURL_eq (pURL : CStr) (ulServerBufferLength : Nat) :
    parseURL pURL ulServerBufferLength = .ok (partsOf pURL.bytes ulServerBufferLength) := by
  obtain ⟨t, hinit, hfresh, hdefault⟩ := init_fresh pURL.holds slash
  unfold parseURL partsOf
  rw [hinit, ok_bind]
  dsimp only
  -- the protocol
  have hprotocol := withToken_of_cut ParsedURL none (fun _ t =>
    withToken none t fun pToken t =>
      match serverAndPort pToken ulServerBufferLength with
      | none => return .error .activationWrong
      | some (pServer, lPort) =>
        withToken (some questionMark) t fun pToken t => do
          match ← parameters t with
          | .error e => return .error e
          | .ok bURLParameters => return .ok ⟨pServer, lPort, 47 :: pToken, bURLParameters⟩)
    hfresh.toInitialized hfresh.reads
  rw [show t.delimitsOf none = [47] from hdefault] at hprotocol
  cases hcut : cutToken [47] pURL.bytes with
  | none => exact hprotocol.1 hcut
  | some cut =>
    obtain ⟨t₁, hgo, hinit₁, hreads₁, hdefault₁⟩ := hprotocol.2 _ _ hcut
    rw [hgo]
    dsimp only
    -- the server and its port
    have hserver := withToken_of_cut ParsedURL none (fun pToken t =>
      match serverAndPort pToken ulServerBufferLength with
      | none => return .error .activationWrong
      | some (pServer, lPort) =>
        withToken (some questionMark) t fun pToken t => do
          match ← parameters t with
          | .error e => return .error e
          | .ok bURLParameters => return .ok ⟨pServer, lPort, 47 :: pToken, bURLParameters⟩)
      hinit₁ hreads₁
    rw [show t₁.delimitsOf none = [47] from hdefault₁.trans hdefault] at hserver
    cases hcut₁ : cutToken [47] cut.2 with
    | none => exact hserver.1 hcut₁
    | some cut₁ =>
      obtain ⟨t₂, hgo₁, hinit₂, hreads₂, -⟩ := hserver.2 _ _ hcut₁
      rw [hgo₁]
      dsimp only
      cases serverAndPort cut₁.1 ulServerBufferLength with
      | none => rfl
      | some server =>
        -- the relative path
        have hpath := withToken_of_cut ParsedURL (some questionMark)
          (fun pToken t => do
            match ← parameters t with
            | .error e => return .error e
            | .ok bURLParameters =>
              return .ok ⟨server.1, server.2, 47 :: pToken, bURLParameters⟩) hinit₂ hreads₂
        rw [show t₂.delimitsOf (some questionMark) = [63] from rfl] at hpath
        cases hcut₂ : cutToken [63] cut₁.2 with
        | none => exact hpath.1 hcut₂
        | some cut₂ =>
          obtain ⟨t₃, hgo₂, hinit₃, hreads₃, -⟩ := hpath.2 _ _ hcut₂
          dsimp only
          rw [hgo₂, parameters_eq hinit₃ hreads₃]
          rfl

/-! ### The path -/

/-- A token is not empty, has no delimiter and no NUL. -/
theorem token_of_cut {set : List UInt8} (hs : 0 ∉ s) (h : cutToken set s = some (token, rest)) :
    token ≠ [] ∧ (∀ c ∈ token, c ∉ set) ∧ 0 ∉ token ∧ 0 ∉ rest := by
  have hcut := cutToken_cut set s
  rw [h] at hcut
  cases hcut with
  | last hskip htoken hne =>
    rw [List.mem_append, not_or] at hs
    exact ⟨hne, htoken, hs.2, by simp⟩
  | next hskip htoken hne hd =>
    rw [List.mem_append, List.mem_append, List.mem_cons, not_or, not_or, not_or] at hs
    exact ⟨hne, htoken, hs.2.1, hs.2.2.2⟩

/-- The path begins with a slash, and has more than it. -/
theorem path_of_partsOf {pURL : List UInt8} {ulServerBufferLength : Nat} {url : ParsedURL}
    (hnul : 0 ∉ pURL) (h : partsOf pURL ulServerBufferLength = .ok url) :
    ∃ pToken, url.bRelativePathWithoutParameters = 47 :: pToken ∧ pToken ≠ [] ∧ 63 ∉ pToken ∧
      0 ∉ pToken := by
  unfold partsOf at h
  split at h
  · cases h
  next hcut =>
  have hnul := (token_of_cut hnul hcut).2.2.2
  split at h
  · cases h
  next hcut₁ =>
  have hnul := (token_of_cut hnul hcut₁).2.2.2
  split at h
  · cases h
  split at h
  · cases h
  next hcut₂ =>
  obtain ⟨hne, hfree, hnul, -⟩ := token_of_cut hnul hcut₂
  cases h
  exact ⟨_, rfl, hne, fun hmem => hfree 63 hmem (List.mem_singleton.mpr rfl), hnul⟩

end WebUtility

end CatraLibraries
