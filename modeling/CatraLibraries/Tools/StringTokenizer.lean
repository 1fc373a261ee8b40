/-
# The string tokenizer

`Tools/src/StringTokenizer.cpp`, built with `_REENTRANT`: `nextToken` cuts the tokens out of a
copy of the buffer, with delimiters that may change from call to call, and `countTokens` counts
them in a second copy.  Both keep the place of their `strtok_r` in `_pLastToken`.

The copy of `countTokens` is freed when it returns, so afterwards `_pLastToken` points into
freed memory, and the next `nextToken` reads there unless it is the first one.  The tokens are
the ones that come without counting exactly when all counting comes before the first or after
the last `nextToken`.
-/
import CatraLibraries.Lib.Strtok
import CatraLibraries.Tools.ToolsErrors

namespace CatraLibraries

open Memory CString

/-! ### The class -/

/-- `StringTokenizerStatus_t`. -/
inductive StringTokenizerStatus
  | builded | initialized
  deriving DecidableEq, Repr

/-- Where `_pLastToken` points to. -/
inductive LastToken
  | unset
  | bufferCopy (i : Nat)
  | freed
  deriving DecidableEq, Repr

/-- The members of a `StringTokenizer`. -/
structure StringTokenizer where
  stsStringTokenizerStatus : StringTokenizerStatus
  pInitialBuffer : Cells UInt8
  pBufferCopy : Cells UInt8
  pDefaultDelimits : List UInt8
  bIsFirstNextToken : Bool
  pLastToken : LastToken
  deriving DecidableEq

namespace StringTokenizer

/-- A new object. -/
def builded : StringTokenizer where
  stsStringTokenizerStatus := .builded
  pInitialBuffer := []
  pBufferCopy := []
  pDefaultDelimits := []
  bIsFirstNextToken := true
  pLastToken := .unset

/-- `init`; the length -1 stands for the length of the string in the buffer.  Memory can be
had. -/
def init (pBuffer : Option (Cells UInt8)) (lBufferLength : Int) (pDefaultDelimits : Option CStr)
    (t : StringTokenizer) : Except Fault (Except ToolsError Unit × StringTokenizer) :=
  match pDefaultDelimits, pBuffer with
  | some pDefaultDelimits, some pBuffer => do
    if lBufferLength < 0 ∧ lBufferLength ≠ -1 then return (.error .activationWrong, t)
    else if t.stsStringTokenizerStatus ≠ .builded then return (.error .operationNotAllowed, t)
    else
      let ulBufferLength ←
        if lBufferLength = -1 then strlen pBuffer else pure lBufferLength.toNat
      let pInitialBuffer ←
        strncpy (List.replicate (ulBufferLength + 1) none) 0 pBuffer ulBufferLength
      let pInitialBuffer ← store pInitialBuffer ulBufferLength 0
      let pBufferCopy ← strcpy (List.replicate (ulBufferLength + 1) none) 0 pInitialBuffer
      return (.ok (),
        { t with
          pInitialBuffer := pInitialBuffer
          pBufferCopy := pBufferCopy
          pDefaultDelimits := pDefaultDelimits.bytes
          bIsFirstNextToken := true
          stsStringTokenizerStatus := .initialized })
  | _, _ => .ok (.error .activationWrong, t)

/-- `finish`. -/
def finish (t : StringTokenizer) : Except ToolsError Unit × StringTokenizer :=
  if t.stsStringTokenizerStatus ≠ .initialized then (.error .operationNotAllowed, t)
  else (.ok (), { t with
    stsStringTokenizerStatus := .builded
    pInitialBuffer := []
    pBufferCopy := []
    pDefaultDelimits := [] })

/-- Where the `strtok_r` of `nextToken` begins: at the buffer copy the first time, then where
`_pLastToken` points. -/
def place (t : StringTokenizer) : Except Fault Nat :=
  if t.bIsFirstNextToken then .ok 0
  else
    match t.pLastToken with
    | .unset => .error .uninitialised
    | .bufferCopy i => .ok i
    | .freed => .error .outOfBounds

/-- `nextToken`, with the text of the token. -/
def nextToken (pCurrentDelimits : Option CStr) (t : StringTokenizer) :
    Except Fault (Except ToolsError (List UInt8) × StringTokenizer) :=
  if t.stsStringTokenizerStatus ≠ .initialized then .ok (.error .operationNotAllowed, t)
  else do
    let delimits := (pCurrentDelimits.map (·.bytes)).getD t.pDefaultDelimits
    let i ← t.place
    let (pToken, i, pBufferCopy) ← strtokR delimits t.pBufferCopy i
    let t :=
      { t with
        pBufferCopy := pBufferCopy
        pLastToken := .bufferCopy i
        bIsFirstNextToken := false }
    match pToken with
    | none => return (.error .stringTokenizerNoMoreToken, t)
    | some k => return (.ok (← cstr (pBufferCopy.drop k)), t)

/-- The loop of `countTokens` over its copy, from the place `i` on. -/
def countLoop (delimits : List UInt8) : Nat → Cells UInt8 → Nat → Nat → Except Fault Nat
  | 0, _, _, _ => .error .outOfFuel
  | fuel + 1, m, i, count => do
    match ← strtokR delimits m i with
    | (none, _, _) => return count
    | (some _, i, m) => countLoop delimits fuel m i (count + 1)

/-- `countTokens`. -/
def countTokens (t : StringTokenizer) : Except Fault (Except ToolsError Nat × StringTokenizer) :=
  if t.stsStringTokenizerStatus ≠ .initialized then .ok (.error .operationNotAllowed, t)
  else do
    let n ← strlen t.pInitialBuffer
    let pLocalBuffer ← strcpy (List.replicate (n + 1) none) 0 t.pInitialBuffer
    let count ← countLoop t.pDefaultDelimits (n + 1) pLocalBuffer 0 0
    return (.ok count, { t with pLastToken := .freed })

/-! ### Calls -/

/-- A call of one of the two methods. -/
inductive Call
  | nextToken (pCurrentDelimits : Option CStr)
  | countTokens
  deriving DecidableEq

/-- What a call answers. -/
inductive Answer
  | token (r : Except ToolsError (List UInt8))
  | count (r : Except ToolsError Nat)

def Call.run (t : StringTokenizer) : Call → Except Fault (Answer × StringTokenizer)
  | .nextToken pCurrentDelimits => do
    let (r, t) ← t.nextToken pCurrentDelimits
    return (.token r, t)
  | .countTokens => do
    let (r, t) ← t.countTokens
    return (.count r, t)

/-- The answers of calls one after the other. -/
def perform (t : StringTokenizer) : List Call → Except Fault (List Answer × StringTokenizer)
  | [] => .ok ([], t)
  | c :: calls => do
    let (a, t) ← c.run t
    let (answers, t) ← t.perform calls
    return (a :: answers, t)

def Call.isNextToken : Call → Bool
  | .nextToken _ => true
  | .countTokens => false

/-- What the calls of `nextToken` returned, in their order. -/
def tokenAnswers : List Answer → List (Except ToolsError (List UInt8))
  | [] => []
  | .token r :: answers => r :: tokenAnswers answers
  | .count _ :: answers => tokenAnswers answers

/-- With the default delimiters `nextToken` delivers `n` tokens, however often it is called. -/
def Delivers (t : StringTokenizer) (n : Nat) : Prop :=
  ∀ k, ∃ answers t', t.perform (List.replicate k (.nextToken none)) = .ok (answers, t') ∧
    ((tokenAnswers answers).filter (·.isOk)).length = min k n

/-- Counting changes nothing: `nextToken` returns what it returns without the calls of
`countTokens`, and those return the number of the tokens. -/
def Undisturbed (t : StringTokenizer) (calls : List Call) : Prop :=
  ∃ answers t₁ answers₀ t₂, t.perform calls = .ok (answers, t₁) ∧
    t.perform (calls.filter Call.isNextToken) = .ok (answers₀, t₂) ∧
    tokenAnswers answers = tokenAnswers answers₀ ∧
    ∀ r, Answer.count r ∈ answers → ∃ n, r = .ok n ∧ t.Delivers n

/-- All counting comes before the first or after the last `nextToken`. -/
def Apart (calls : List Call) : Prop :=
  ∃ m n nexts, calls = List.replicate m .countTokens ++ nexts ++ List.replicate n .countTokens ∧
    ∀ c ∈ nexts, c.isNextToken = true

/-! ### One call -/

section

variable {t : StringTokenizer} {s rest : List UInt8}

/-- An initialised object with the string `s` in its initial buffer. -/
structure Initialized (t : StringTokenizer) (s : List UInt8) : Prop where
  status : t.stsStringTokenizerStatus = .initialized
  initialBuffer : Holds t.pInitialBuffer s

/-- `nextToken` goes on with the string `rest`. -/
def Reads (t : StringTokenizer) (rest : List UInt8) : Prop :=
  ∃ i, t.place = .ok i ∧ Holds (t.pBufferCopy.drop i) rest

/-- What `nextToken` answers where it goes on with `rest`, and where it goes on then. -/
def answerOf (delimits rest : List UInt8) : Except ToolsError (List UInt8) × List UInt8 :=
  match cutToken delimits rest with
  | none => (.error .stringTokenizerNoMoreToken, [])
  | some (token, rest) => (.ok token, rest)

/-- The delimiters of a call. -/
def delimitsOf (t : StringTokenizer) (pCurrentDelimits : Option CStr) : List UInt8 :=
  (pCurrentDelimits.map (·.bytes)).getD t.pDefaultDelimits

/-- **One call of `nextToken`.** -/
theorem nextToken_reads (hinit : t.Initialized s) (hreads : t.Reads rest) (d : Option CStr) :
    ∃ t', t.nextToken d = .ok ((answerOf (t.delimitsOf d) rest).1, t') ∧ t'.Initialized s ∧
      t'.Reads (answerOf (t.delimitsOf d) rest).2 ∧ t'.pDefaultDelimits = t.pDefaultDelimits := by
  obtain ⟨i, hplace, hholds⟩ := hreads
  have hcall := strtokR_cut (t.delimitsOf d) hholds
  unfold nextToken answerOf
  rw [if_neg (not_not.mpr hinit.status)]
  dsimp only
  rw [hplace, ok_bind]
  cases hcut : cutToken (t.delimitsOf d) rest with
  | none =>
    rw [hcut] at hcall
    obtain ⟨j, hstrtok, hend⟩ := hcall
    unfold delimitsOf at hstrtok
    rw [hstrtok]
    exact ⟨_, rfl, ⟨hinit.status, hinit.initialBuffer⟩, ⟨j, rfl, hend⟩, rfl⟩
  | some cut =>
    obtain ⟨token, rest'⟩ := cut
    rw [hcut] at hcall
    obtain ⟨k, j, m', hstrtok, htoken, hrest⟩ := hcall
    unfold delimitsOf at hstrtok
    rw [hstrtok, ok_bind]
    dsimp only
    rw [htoken.cstr_eq]
    exact ⟨_, rfl, ⟨hinit.status, hinit.initialBuffer⟩, ⟨j, rfl, hrest⟩, rfl⟩

/-- The loop counts the tokens of the string at its place. -/
theorem countLoop_eq {delimits : List UInt8} {fuel : Nat} {m : Cells UInt8} {i : Nat}
    (count : Nat) (h : Holds (m.drop i) s) (hfuel : s.length < fuel) :
    countLoop delimits fuel m i count = .ok (count + (tokens delimits s).length) := by
  induction fuel generalizing m i count s with
  | zero => exact absurd hfuel (Nat.not_lt_zero _)
  | succ fuel ih =>
    have hcall := strtokR_cut delimits h
    unfold countLoop
    rw [tokens_eq_cutToken]
    cases hcut : cutToken delimits s with
    | none =>
      rw [hcut] at hcall
      obtain ⟨j, hstrtok, -⟩ := hcall
      rw [hstrtok]
      rfl
    | some cut =>
      obtain ⟨token, rest⟩ := cut
      rw [hcut] at hcall
      obtain ⟨k, j, m', hstrtok, -, hrest⟩ := hcall
      have hlt := cutToken_length hcut
      rw [hstrtok, ok_bind]
      dsimp only
      rw [ih (count + 1) hrest (by omega), List.length_cons, Nat.add_assoc, Nat.add_comm 1]

/-- **One call of `countTokens`** gives the number of all tokens, and loses the place. -/
theorem countTokens_eq (hinit : t.Initialized s) :
    t.countTokens = .ok (.ok (tokens t.pDefaultDelimits s).length,
      { t with pLastToken := .freed }) := by
  obtain ⟨m, hcopy, -, hholds, -⟩ := hinit.initialBuffer.strcpy_eq
    (List.replicate (s.length + 1) none) (by simp)
  have hbegin : Holds (m.drop 0) s := hholds
  unfold countTokens
  rw [if_neg (not_not.mpr hinit.status), hinit.initialBuffer.strlen_eq, ok_bind, hcopy, ok_bind,
    countLoop_eq 0 hbegin (Nat.lt_succ_self _), Nat.zero_add]
  rfl

/-! ### Many calls -/

theorem perform_append (calls calls' : List Call) (t : StringTokenizer) :
    t.perform (calls ++ calls') = (do
      let (answers, t) ← t.perform calls
      let (answers', t) ← t.perform calls'
      return (answers ++ answers', t)) := by
  induction calls generalizing t with
  | nil =>
    cases h : t.perform calls' with
    | error fault => simp [perform, h]
    | ok r => simp [perform, h]
  | cons c calls ih =>
    rw [List.cons_append, perform, perform]
    cases hc : c.run t with
    | error fault => rfl
    | ok r =>
      rw [ok_bind, ok_bind]
      dsimp only
      rw [ih r.2]
      cases hr : r.2.perform calls with
      | error fault => rfl
      | ok r' =>
        cases hr' : r'.2.perform calls' with
        | error fault => simp [hr']
        | ok r'' => simp [hr']

/-- What successive calls of `nextToken` answer from the string `rest` on. -/
def nextAnswers (default : List UInt8) :
    List (Option CStr) → List UInt8 → List (Except ToolsError (List UInt8))
  | [], _ => []
  | d :: ds, rest =>
    (answerOf ((d.map (·.bytes)).getD default) rest).1 ::
      nextAnswers default ds (answerOf ((d.map (·.bytes)).getD default) rest).2

theorem perform_nexts (hinit : t.Initialized s) (hreads : t.Reads rest) (ds : List (Option CStr)) :
    ∃ t', t.perform (ds.map .nextToken)
        = .ok ((nextAnswers t.pDefaultDelimits ds rest).map .token, t') ∧ t'.Initialized s ∧
      t'.pDefaultDelimits = t.pDefaultDelimits := by
  induction ds generalizing t rest with
  | nil => exact ⟨t, rfl, hinit, rfl⟩
  | cons d ds ih =>
    obtain ⟨t₁, hnext, hinit₁, hreads₁, hdefault⟩ := nextToken_reads hinit hreads d
    obtain ⟨t', hrest, hinit', hdefault'⟩ := ih hinit₁ hreads₁
    refine ⟨t', ?_, hinit', hdefault'.trans hdefault⟩
    rw [hdefault] at hrest
    rw [List.map_cons, perform, Call.run, hnext, ok_bind]
    show (t₁.perform (ds.map .nextToken) >>= _) = _
    rw [hrest]
    rfl

/-- Counting answers the same again and again. -/
theorem perform_counts (hinit : t.Initialized s) (n : Nat) :
    ∃ t', t.perform (List.replicate n .countTokens)
        = .ok (List.replicate n (.count (.ok (tokens t.pDefaultDelimits s).length)), t') ∧
      t'.Initialized s ∧ t'.pDefaultDelimits = t.pDefaultDelimits ∧
      t'.bIsFirstNextToken = t.bIsFirstNextToken ∧ t'.pBufferCopy = t.pBufferCopy := by
  induction n generalizing t with
  | zero => exact ⟨t, rfl, hinit, rfl, rfl, rfl⟩
  | succ n ih =>
    have hfreed : ({ t with pLastToken := .freed } : StringTokenizer).Initialized s :=
      ⟨hinit.status, hinit.initialBuffer⟩
    obtain ⟨t', hrest, h'⟩ := ih hfreed
    refine ⟨t', ?_, h'⟩
    rw [List.replicate_succ, perform, Call.run, countTokens_eq hinit, ok_bind]
    show (perform _ (List.replicate n .countTokens) >>= _) = _
    rw [hrest]
    rfl

theorem tokenAnswers_append (answers answers' : List Answer) :
    tokenAnswers (answers ++ answers') = tokenAnswers answers ++ tokenAnswers answers' := by
  induction answers with
  | nil => rfl
  | cons a answers ih =>
    cases a with
    | token r => exact congrArg (r :: ·) ih
    | count r => exact ih

theorem tokenAnswers_map_token (rs : List (Except ToolsError (List UInt8))) :
    tokenAnswers (rs.map .token) = rs := by
  induction rs with
  | nil => rfl
  | cons r rs ih => exact congrArg (r :: ·) ih

theorem tokenAnswers_replicate_count (n : Nat) (r : Except ToolsError Nat) :
    tokenAnswers (List.replicate n (.count r)) = [] := by
  induction n with
  | zero => rfl
  | succ n ih => exact ih

/-- With the default delimiters the tokens come one by one, and then none. -/
theorem nextAnswers_default (default : List UInt8) (k : Nat) (rest : List UInt8) :
    ((nextAnswers default (List.replicate k none) rest).filter (·.isOk)).length
      = min k (tokens default rest).length := by
  induction k generalizing rest with
  | zero => simp [nextAnswers]
  | succ k ih =>
    rw [List.replicate_succ, nextAnswers, tokens_eq_cutToken default rest]
    show ((_ :: nextAnswers _ _ (answerOf default rest).2).filter _).length = _
    unfold answerOf
    cases hcut : cutToken default rest with
    | none =>
      dsimp only
      have hnil : tokens default [] = [] := tokens_eq_cutToken default []
      have hrest := ih []
      rw [hnil] at hrest
      simp only [Option.map_none, Option.getD_none, hcut]
      rw [List.filter_cons_of_neg (by simp [Except.isOk, Except.toBool]), hrest]
      simp
    | some cut =>
      simp only [Option.map_none, Option.getD_none, hcut]
      rw [List.filter_cons_of_pos (by simp [Except.isOk, Except.toBool]), List.length_cons,
        ih cut.2, List.length_cons, Nat.succ_min_succ]

/-- An object as `init` leaves it, with the string `s`. -/
structure Fresh (t : StringTokenizer) (s : List UInt8) : Prop extends t.Initialized s where
  first : t.bIsFirstNextToken = true
  bufferCopy : Holds t.pBufferCopy s

theorem Fresh.reads (h : t.Fresh s) : t.Reads s := by
  refine ⟨0, ?_, h.bufferCopy⟩
  unfold place
  rw [if_pos h.first]

/-- `init` of a new object with a string. -/
theorem init_fresh {m : Cells UInt8} (h : Holds m s) (delimits : CStr) :
    ∃ t', builded.init (some m) (-1) (some delimits) = .ok (.ok (), t') ∧ t'.Fresh s ∧
      t'.pDefaultDelimits = delimits.bytes := by
  have hempty : Holds (s.map some ++ [some 0]) s := ⟨h.nulFree, [], rfl⟩
  obtain ⟨m', hcopy, -, hholds, -⟩ := hempty.strcpy_eq
    (List.replicate (s.length + 1) none) (by simp)
  have hcells := h.strncpyCells_eq (Nat.le_refl s.length)
  rw [List.take_length] at hcells
  have hwrite : writeAt (List.replicate (s.length + 1) none) 0 (s.map some)
      = .ok (s.map some ++ [none]) := by
    have hroom : (List.replicate s.length (none : Option UInt8)).length = (s.map some).length := by
      rw [List.length_replicate, List.length_map]
    have hat := writeAt_append [] [none] hroom
    rwa [List.nil_append, List.nil_append, ← List.replicate_succ', List.length_nil] at hat
  have hstore : store (s.map some ++ [none]) s.length 0 = .ok (s.map some ++ [some 0]) := by
    have hat := store_append (s.map some) [] none (0 : UInt8)
    rwa [List.length_map] at hat
  refine ⟨{ builded with
      pInitialBuffer := s.map some ++ [some 0]
      pBufferCopy := m'
      pDefaultDelimits := delimits.bytes
      bIsFirstNextToken := true
      stsStringTokenizerStatus := .initialized }, ?_, ⟨⟨rfl, hempty⟩, rfl, hholds⟩, rfl⟩
  unfold init
  dsimp only
  rw [if_neg (by simp), if_neg (by simp [builded]), if_pos rfl, h.strlen_eq, ok_bind, strncpy,
    hcells, ok_bind, hwrite, ok_bind, hstore, ok_bind, hcopy, ok_bind]
  rfl

/-- `nextToken` delivers the tokens that are counted. -/
theorem Fresh.delivers (h : t.Fresh s) : t.Delivers (tokens t.pDefaultDelimits s).length := by
  intro k
  obtain ⟨t', hperform, -⟩ := perform_nexts h.toInitialized h.reads (List.replicate k none)
  rw [List.map_replicate] at hperform
  exact ⟨_, t', hperform, by rw [tokenAnswers_map_token, nextAnswers_default]⟩

/-! ### Counting apart from the tokens -/

theorem exists_nexts {calls : List Call} (h : ∀ c ∈ calls, c.isNextToken = true) :
    ∃ ds : List (Option CStr), calls = ds.map .nextToken := by
  induction calls with
  | nil => exact ⟨[], rfl⟩
  | cons c calls ih =>
    obtain ⟨ds, rfl⟩ := ih fun c hc => h c (List.mem_cons_of_mem _ hc)
    cases c with
    | nextToken d => exact ⟨d :: ds, rfl⟩
    | countTokens => exact absurd (h .countTokens List.mem_cons_self) (by simp [Call.isNextToken])

theorem undisturbed_of_apart (h : t.Fresh s) {calls : List Call} (hapart : Apart calls) :
    t.Undisturbed calls := by
  obtain ⟨m, n, nexts, rfl, hnexts⟩ := hapart
  obtain ⟨ds, rfl⟩ := exists_nexts hnexts
  obtain ⟨t₁, hcounts, hinit₁, hdefault₁, hfirst₁, hcopy₁⟩ := perform_counts h.toInitialized m
  have hfresh₁ : t₁.Fresh s := ⟨hinit₁, hfirst₁ ▸ h.first, hcopy₁ ▸ h.bufferCopy⟩
  obtain ⟨t₂, htokens, hinit₂, hdefault₂⟩ := perform_nexts hinit₁ hfresh₁.reads ds
  obtain ⟨t₃, hcounts', -⟩ := perform_counts hinit₂ n
  obtain ⟨t', halone, -⟩ := perform_nexts h.toInitialized h.reads ds
  rw [hdefault₁] at htokens hdefault₂
  rw [hdefault₂] at hcounts'
  have hfilter : (List.replicate m Call.countTokens ++ ds.map Call.nextToken ++
      List.replicate n Call.countTokens).filter Call.isNextToken = ds.map Call.nextToken := by
    simp [Call.isNextToken, List.filter_map, Function.comp_def]
  rw [← hfilter] at halone
  refine ⟨List.replicate m (.count (.ok (tokens t.pDefaultDelimits s).length))
      ++ (nextAnswers t.pDefaultDelimits ds s).map .token
      ++ List.replicate n (.count (.ok (tokens t.pDefaultDelimits s).length)), t₃,
    (nextAnswers t.pDefaultDelimits ds s).map .token, t', ?_, halone, ?_, ?_⟩
  · rw [perform_append, perform_append, hcounts, ok_bind]
    dsimp only
    rw [htokens, ok_bind]
    show (t₂.perform (List.replicate n .countTokens) >>= _) = _
    rw [hcounts']
    rfl
  · rw [tokenAnswers_append, tokenAnswers_append, tokenAnswers_replicate_count,
      tokenAnswers_replicate_count, List.append_nil, List.nil_append]
  · intro r hr
    rcases List.mem_append.mp hr with hr | hr
    · rcases List.mem_append.mp hr with hr | hr
      · obtain ⟨-, heq⟩ := List.mem_replicate.mp hr
        exact ⟨_, Answer.count.inj heq, h.delivers⟩
      · obtain ⟨r', -, heq⟩ := List.mem_map.mp hr
        exact absurd heq (by simp)
    · obtain ⟨-, heq⟩ := List.mem_replicate.mp hr
      exact ⟨_, Answer.count.inj heq, h.delivers⟩

/-! ### Counting between the tokens -/

theorem perform_cons_ok {c : Call} {calls : List Call} {answers : List Answer}
    {t' : StringTokenizer} (h : t.perform (c :: calls) = .ok (answers, t')) :
    ∃ a t₁ answers₁, c.run t = .ok (a, t₁) ∧ t₁.perform calls = .ok (answers₁, t') := by
  obtain ⟨⟨a, t₁⟩, hc, h⟩ := bind_eq_ok.mp h
  obtain ⟨⟨answers₁, t₂⟩, hrest, h⟩ := bind_eq_ok.mp h
  obtain ⟨-, rfl⟩ := Prod.mk.inj (Except.ok.inj h)
  exact ⟨a, t₁, answers₁, hc, hrest⟩

/-- What the two methods leave of an initialised object: where the next one begins. -/
theorem run_ok {c : Call} {a : Answer} {t₁ : StringTokenizer}
    (hstatus : t.stsStringTokenizerStatus = .initialized) (h : c.run t = .ok (a, t₁)) :
    t₁.stsStringTokenizerStatus = .initialized ∧
      match c with
      | .nextToken _ => (∃ i, t.place = .ok i) ∧ t₁.bIsFirstNextToken = false
      | .countTokens => t₁.bIsFirstNextToken = t.bIsFirstNextToken ∧ t₁.pLastToken = .freed := by
  cases c with
  | nextToken d =>
    obtain ⟨⟨r, t₂⟩, hnext, h⟩ := bind_eq_ok.mp h
    obtain ⟨-, rfl⟩ := Prod.mk.inj (Except.ok.inj h)
    unfold nextToken at hnext
    rw [if_neg (not_not.mpr hstatus)] at hnext
    obtain ⟨i, hplace, hnext⟩ := bind_eq_ok.mp hnext
    obtain ⟨⟨k, j, m⟩, -, hnext⟩ := bind_eq_ok.mp hnext
    cases k with
    | none =>
      obtain ⟨-, rfl⟩ := Prod.mk.inj (Except.ok.inj hnext)
      exact ⟨hstatus, ⟨i, hplace⟩, rfl⟩
    | some k =>
      obtain ⟨text, -, hnext⟩ := bind_eq_ok.mp hnext
      obtain ⟨-, rfl⟩ := Prod.mk.inj (Except.ok.inj hnext)
      exact ⟨hstatus, ⟨i, hplace⟩, rfl⟩
  | countTokens =>
    obtain ⟨⟨r, t₂⟩, hcount, h⟩ := bind_eq_ok.mp h
    obtain ⟨-, rfl⟩ := Prod.mk.inj (Except.ok.inj h)
    unfold countTokens at hcount
    rw [if_neg (not_not.mpr hstatus)] at hcount
    obtain ⟨n, -, hcount⟩ := bind_eq_ok.mp hcount
    obtain ⟨m, -, hcount⟩ := bind_eq_ok.mp hcount
    obtain ⟨count, -, hcount⟩ := bind_eq_ok.mp hcount
    obtain ⟨-, rfl⟩ := Prod.mk.inj (Except.ok.inj hcount)
    exact ⟨hstatus, rfl, rfl⟩

/-- The place is lost: no token was cut since the last counting, but one before. -/
def Lost (t : StringTokenizer) : Prop := t.bIsFirstNextToken = false ∧ t.pLastToken = .freed

/-- After the place is lost only counting goes on. -/
theorem counts_of_lost (hstatus : t.stsStringTokenizerStatus = .initialized) (hlost : t.Lost)
    {calls : List Call} {answers : List Answer} {t' : StringTokenizer}
    (h : t.perform calls = .ok (answers, t')) :
    calls = List.replicate calls.length .countTokens := by
  induction calls generalizing t answers with
  | nil => rfl
  | cons c calls ih =>
    obtain ⟨a, t₁, answers₁, hc, hrest⟩ := perform_cons_ok h
    obtain ⟨hstatus₁, hrun⟩ := run_ok hstatus hc
    cases c with
    | nextToken d =>
      obtain ⟨⟨i, hplace⟩, -⟩ := hrun
      unfold place at hplace
      rw [if_neg (by simp [hlost.1]), hlost.2] at hplace
      exact absurd hplace (by simp)
    | countTokens =>
      have hrec := ih hstatus₁ ⟨hrun.1.trans hlost.1, hrun.2⟩ hrest
      exact congrArg (Call.countTokens :: ·) hrec

/-- After the first token, counting is the end of the tokens. -/
theorem apart_of_reading (hstatus : t.stsStringTokenizerStatus = .initialized)
    (hfirst : t.bIsFirstNextToken = false) {calls : List Call} {answers : List Answer}
    {t' : StringTokenizer} (h : t.perform calls = .ok (answers, t')) :
    ∃ n nexts, calls = nexts ++ List.replicate n .countTokens ∧
      ∀ c ∈ nexts, c.isNextToken = true := by
  induction calls generalizing t answers with
  | nil => exact ⟨0, [], rfl, by simp⟩
  | cons c calls ih =>
    obtain ⟨a, t₁, answers₁, hc, hrest⟩ := perform_cons_ok h
    obtain ⟨hstatus₁, hrun⟩ := run_ok hstatus hc
    cases c with
    | nextToken d =>
      obtain ⟨n, nexts, rfl, hnexts⟩ := ih hstatus₁ hrun.2 hrest
      exact ⟨n, .nextToken d :: nexts, rfl, List.forall_mem_cons.mpr ⟨rfl, hnexts⟩⟩
    | countTokens =>
      have hcounts := counts_of_lost hstatus₁ ⟨hrun.1.trans hfirst, hrun.2⟩ hrest
      refine ⟨calls.length + 1, [], ?_, by simp⟩
      exact congrArg (Call.countTokens :: ·) hcounts

theorem apart_of_perform (hstatus : t.stsStringTokenizerStatus = .initialized)
    {calls : List Call} {answers : List Answer} {t' : StringTokenizer}
    (h : t.perform calls = .ok (answers, t')) : Apart calls := by
  induction calls generalizing t answers with
  | nil => exact ⟨0, 0, [], rfl, by simp⟩
  | cons c calls ih =>
    obtain ⟨a, t₁, answers₁, hc, hrest⟩ := perform_cons_ok h
    obtain ⟨hstatus₁, hrun⟩ := run_ok hstatus hc
    cases c with
    | nextToken d =>
      obtain ⟨n, nexts, rfl, hnexts⟩ := apart_of_reading hstatus₁ hrun.2 hrest
      exact ⟨0, n, .nextToken d :: nexts, rfl, List.forall_mem_cons.mpr ⟨rfl, hnexts⟩⟩
    | countTokens =>
      obtain ⟨m, n, nexts, rfl, hnexts⟩ := ih hstatus₁ hrest
      exact ⟨m + 1, n, nexts, rfl, hnexts⟩

/-- **A new object.**  It holds the string at the beginning of the buffer. -/
theorem fresh_of_init {pBuffer : Option (Cells UInt8)} {lBufferLength : Int}
    {pDefaultDelimits : Option CStr} {t' : StringTokenizer}
    (h : t.init pBuffer lBufferLength pDefaultDelimits = .ok (.ok (), t')) : ∃ s, t'.Fresh s := by
  unfold init at h
  split at h
  · next delimits buffer =>
    split_ifs at h
    · exact absurd (Prod.mk.inj (Except.ok.inj h)).1 (by simp)
    · exact absurd (Prod.mk.inj (Except.ok.inj h)).1 (by simp)
    all_goals
      obtain ⟨n, -, h⟩ := bind_eq_ok.mp h
      obtain ⟨m₁, -, h⟩ := bind_eq_ok.mp h
      obtain ⟨m, -, h⟩ := bind_eq_ok.mp h
      obtain ⟨copy, hcopy, h⟩ := bind_eq_ok.mp h
      obtain ⟨-, rfl⟩ := Prod.mk.inj (Except.ok.inj h)
      obtain ⟨s, hs, hholds⟩ := holds_of_strcpy hcopy
      exact ⟨s, ⟨⟨rfl, hs⟩, rfl, hholds⟩⟩
  · exact absurd (Prod.mk.inj (Except.ok.inj h)).1 (by simp)

/-- **Counting disturbs nothing exactly when it is apart from the tokens.** -/
theorem undisturbed_iff (pBuffer : Option (Cells UInt8)) (lBufferLength : Int)
    (pDefaultDelimits : Option CStr) (calls : List Call) (t t' : StringTokenizer)
    (h : t.init pBuffer lBufferLength pDefaultDelimits = .ok (.ok (), t')) :
    t'.Undisturbed calls ↔ Apart calls := by
  obtain ⟨s, hfresh⟩ := fresh_of_init h
  constructor
  · rintro ⟨answers, t₁, -, -, hperform, -⟩
    exact apart_of_perform hfresh.status hperform
  · exact undisturbed_of_apart hfresh

end

/-! ### A tokenizer of two words -/

/-- The block of the string "a b". -/
def twoWords : Cells UInt8 := [some 97, some 32, some 98, some 0]

/-- The object that `init` makes of it, with a blank as the delimiter. -/
def ofTwoWords : StringTokenizer where
  stsStringTokenizerStatus := .initialized
  pInitialBuffer := twoWords
  pBufferCopy := twoWords
  pDefaultDelimits := [32]
  bIsFirstNextToken := true
  pLastToken := .unset

theorem init_twoWords :
    builded.init (some twoWords) (-1) (some ⟨[32], by decide⟩) = .ok (.ok (), ofTwoWords) := rfl

theorem undisturbed_count_first :
    ofTwoWords.Undisturbed [.countTokens, .nextToken none, .nextToken none] :=
  (undisturbed_iff (some twoWords) (-1) (some ⟨[32], by decide⟩) _ builded ofTwoWords
    init_twoWords).mpr ⟨1, 0, [.nextToken none, .nextToken none], rfl, by decide⟩

/-- Counting after the first token loses the second: `nextToken` reads what was freed. -/
theorem not_undisturbed_count_between :
    builded.init (some twoWords) (-1) (some ⟨[32], by decide⟩) = .ok (.ok (), ofTwoWords) ∧
      ¬ofTwoWords.Undisturbed [.nextToken none, .countTokens, .nextToken none] := by
  refine ⟨rfl, ?_⟩
  rintro ⟨answers, t₁, -, -, hperform, -⟩
  have hfault : ofTwoWords.perform [.nextToken none, .countTokens, .nextToken none]
      = .error .outOfBounds := rfl
  rw [hfault] at hperform
  exact absurd hperform (by simp)

end StringTokenizer

end CatraLibraries
