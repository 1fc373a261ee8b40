/-
# The request line

`WebUtility::parseHttpHeader` (`WebTools/src/WebUtility.cpp`) takes the method of a request up to
the first space, the URL from there to the text ` HTTP/`, and the headers from behind the first line.
Both cuts are the right ones for every request line (`parseHttpHeader_computes`).

The method itself is compared over one character less than it has.  `recognised` says what comes of
that: a `G`, or `GEX`, is a GET.  The three outputs are right together exactly where the method is one
of the two names, is empty, or is no near miss of either (`parseHttpHeader_right_iff`).
-/
import CatraLibraries.Tools.BufferBytes
import CatraLibraries.WebTools.UrlParameters

namespace CatraLibraries

open Memory CString Substring

namespace WebUtility

/-! ### The code -/

/-- `HttpMethod`. -/
inductive HttpMethod
  | get
  | post
  | undefined
  deriving DecidableEq, Repr

/-- The errors of `parseHttpHeader`; the first carries the header. -/
inductive HttpHeaderError
  | errNoError
  | wrongHttpHeader (pHttpHeader : Cells UInt8)
  | setBufferFailed
  deriving DecidableEq

/-- What `parseHttpHeader` returns and leaves in its outputs. -/
structure ParsedHeader where
  err : HttpHeaderError
  hmHttpMethod : HttpMethod
  pbURL : Option Buffer
  pbHeaders : Option Buffer

/-- The header is neither an HTTP nor an RTSP response. -/
def isRequest (pHttpHeader : Cells UInt8) : Except Fault Bool := do
  if ← strncmp pHttpHeader (bytesOf "HTTP/") then return false
  else return !(← strncmp pHttpHeader (bytesOf "RTSP/"))

/-- The method in front of the space at `pURLBegin`.  The length of the comparison is
`pURLBegin - pHttpHeader - 1`, as a `size_t`. -/
def methodOf (pHttpHeader : Cells UInt8) (pURLBegin : ℕ) : Except Fault HttpMethod := do
  let n := Buffer.unsignedLongSub pURLBegin 1
  if ← strncmpUpTo pHttpHeader (literal (bytesOf "GET")) n then return .get
  else if ← strncmpUpTo pHttpHeader (literal (bytesOf "POST")) n then return .post
  else return .undefined

/-- `setBuffer` on an output that may be `NULL`. -/
def setOutput (pbOutput : Option Buffer) (pBuffer : Cells UInt8) (lBufferLength : ℤ) :
    Except Fault (HttpHeaderError × Option Buffer) :=
  match pbOutput with
  | none => .ok (.errNoError, none)
  | some b => do
    let (err, b) ← b.setBuffer (some pBuffer) lBufferLength
    if err ≠ .errNoError then return (.setBufferFailed, some b)
    else return (.errNoError, some b)

/-- The end of `parseHttpHeader`: the headers. -/
def parseHeaders (pHttpHeader : Cells UInt8) (hmHttpMethod : HttpMethod)
    (pbURL pbHeaders : Option Buffer) : Except Fault ParsedHeader :=
  match pbHeaders with
  | none => .ok ⟨.errNoError, hmHttpMethod, pbURL, none⟩
  | some b => do
    match ← strchr pHttpHeader 10 with
    | none => return ⟨.wrongHttpHeader pHttpHeader, hmHttpMethod, pbURL, some b⟩
    | some pHeadersBegin =>
      let (err, pbHeaders) ← setOutput (some b) (pHttpHeader.drop (pHeadersBegin + 1)) (-1)
      return ⟨err, hmHttpMethod, pbURL, pbHeaders⟩

/-- `parseHttpHeader (pbHttpHeaderRequest, phmHttpMethod, pbURL, pbHeaders)`. -/
def parseHttpHeader (pbHttpHeaderRequest : Buffer) (hmHttpMethod : HttpMethod)
    (pbURL pbHeaders : Option Buffer) : Except Fault ParsedHeader := do
  let pHttpHeader := pbHttpHeaderRequest.str
  if ← isRequest pHttpHeader then
    match ← strchr pHttpHeader 32 with
    | none => return ⟨.wrongHttpHeader pHttpHeader, hmHttpMethod, pbURL, pbHeaders⟩
    | some pURLBegin =>
      match ← strstr (pHttpHeader.drop (pURLBegin + 1)) (bytesOf " HTTP/") with
      | none => return ⟨.wrongHttpHeader pHttpHeader, hmHttpMethod, pbURL, pbHeaders⟩
      | some lURLLength =>
        let hmHttpMethod ← methodOf pHttpHeader pURLBegin
        let (err, pbURL) ← setOutput pbURL (pHttpHeader.drop (pURLBegin + 1)) lURLLength
        if err ≠ .errNoError then return ⟨err, hmHttpMethod, pbURL, pbHeaders⟩
        else parseHeaders pHttpHeader hmHttpMethod pbURL pbHeaders
  else parseHeaders pHttpHeader .undefined pbURL pbHeaders

/-! ### Request lines -/

/-- A request line and what follows it. -/
def requestText (method url version headers : List UInt8) : List UInt8 :=
  method ++ 32 :: (url ++ (bytesOf " HTTP/" ++ (version ++ 13 :: 10 :: headers)))

/-- **An HTTP request**: a line of the form `method SP url SP HTTP/version`, and any headers. -/
structure HttpRequest where
  method : CStr
  url : CStr
  version : CStr
  headers : CStr
  method_spaceless : 32 ∉ method.bytes
  url_ends : ¬bytesOf " HTTP/" <:+: url.bytes
  method_line : 10 ∉ method.bytes
  url_line : 10 ∉ url.bytes
  version_line : 10 ∉ version.bytes
  not_http : ¬bytesOf "HTTP/" <+: requestText method.bytes url.bytes version.bytes headers.bytes
  not_rtsp : ¬bytesOf "RTSP/" <+: requestText method.bytes url.bytes version.bytes headers.bytes

namespace HttpRequest

variable (r : HttpRequest)

def text : List UInt8 :=
  requestText r.method.bytes r.url.bytes r.version.bytes r.headers.bytes

theorem text_nulFree : 0 ∉ r.text := by
  have hhttp : 0 ∉ bytesOf " HTTP/" := by decide
  simp only [text, requestText, List.mem_append, List.mem_cons, not_or]
  exact ⟨r.method.nulFree, by decide, r.url.nulFree, hhttp, r.version.nulFree, by decide, by decide,
    r.headers.nulFree⟩

/-- The request up to its headers. -/
def line : List UInt8 :=
  r.method.bytes ++ 32 :: (r.url.bytes ++ (bytesOf " HTTP/" ++ (r.version.bytes ++ [13])))

theorem text_eq_line : r.text = r.line ++ 10 :: r.headers.bytes := by
  simp [text, requestText, line]

theorem line_oneLine : 10 ∉ r.line := by
  have hhttp : 10 ∉ bytesOf " HTTP/" := by decide
  simp only [line, List.mem_append, List.mem_cons, not_or]
  exact ⟨r.method_line, by decide, r.url_line, hhttp, r.version_line, by decide, List.not_mem_nil⟩

end HttpRequest

/-- The method that a name stands for. -/
def HttpMethod.named (method : List UInt8) : HttpMethod :=
  if method = bytesOf "GET" then .get
  else if method = bytesOf "POST" then .post
  else .undefined

/-- The method that the comparisons find. -/
def recognised (method : List UInt8) : HttpMethod :=
  if method ≠ [] ∧ method.dropLast <+: bytesOf "GET" then .get
  else if method ≠ [] ∧ method.dropLast <+: bytesOf "POST" then .post
  else .undefined

/-- The method is one of the two names, empty, or no near miss of either. -/
def NoNearMiss (method : List UInt8) : Prop :=
  method = bytesOf "GET" ∨ method = bytesOf "POST" ∨ method = [] ∨
    (¬method.dropLast <+: bytesOf "GET" ∧ ¬method.dropLast <+: bytesOf "POST")

theorem recognised_eq_named_iff (method : List UInt8) :
    recognised method = HttpMethod.named method ↔ NoNearMiss method := by
  unfold NoNearMiss
  by_cases hget : method = bytesOf "GET"
  · subst hget
    exact iff_of_true (by decide) (Or.inl rfl)
  by_cases hpost : method = bytesOf "POST"
  · subst hpost
    exact iff_of_true (by decide) (Or.inr (Or.inl rfl))
  rw [HttpMethod.named, if_neg hget, if_neg hpost, recognised]
  by_cases hempty : method = []
  · simp [hempty]
  · by_cases hg : method.dropLast <+: bytesOf "GET"
    · simp [hget, hpost, hempty, hg]
    · by_cases hp : method.dropLast <+: bytesOf "POST"
      · simp [hget, hpost, hempty, hg, hp]
      · simp [hg, hp]

/-! ### What the method computes -/

/-- An output is left out where it was, and otherwise holds the text. -/
def SetTo (pbOutput pbOutput' : Option Buffer) (t : List UInt8) : Prop :=
  match pbOutput, pbOutput' with
  | none, none => True
  | some _, some b => Buffer.Simulates b (some t)
  | _, _ => False

/-- A comparison over one character less than the method has. -/
theorem strncmpUpTo_method (r : HttpRequest) {m : Cells UInt8} (hm : Holds m r.text)
    {c : UInt8} (hc : c ≠ 32) {name : List UInt8} (hname : 0 ∉ c :: name)
    (hlen : r.method.bytes.length < 2 ^ 64) :
    strncmpUpTo m (literal (c :: name)) (Buffer.unsignedLongSub r.method.bytes.length 1)
      = .ok (decide (r.method.bytes ≠ [] ∧ r.method.bytes.dropLast <+: c :: name)) := by
  rw [hm.strncmpUpTo_eq (literal_holds_string hname)]
  refine congrArg Except.ok (decide_eq_decide.mpr ?_)
  by_cases hempty : r.method.bytes = []
  · -- the length wraps around, and the comparison starts with the space
    have hn : Buffer.unsignedLongSub r.method.bytes.length 1 = 2 ^ 64 - 2 + 1 := by
      rw [hempty]
      decide
    have htext : r.text ++ [0] = 32 :: (r.text ++ [0]).tail := by
      rw [HttpRequest.text, requestText, hempty]
      rfl
    rw [hn, htext, List.cons_append, List.take_succ_cons, List.take_succ_cons]
    exact iff_of_false (fun h => hc (List.cons.inj h).1.symm) (fun h => h.1 hempty)
  · have hpos : 0 < r.method.bytes.length := List.length_pos_iff.mpr hempty
    have hn : Buffer.unsignedLongSub r.method.bytes.length 1 = r.method.bytes.dropLast.length := by
      rw [Buffer.unsignedLongSub, List.length_dropLast]
      omega
    have htake : (r.text ++ [0]).take r.method.bytes.dropLast.length = r.method.bytes.dropLast := by
      have hpre : r.method.bytes.dropLast <+: r.text ++ [0] :=
        ((List.dropLast_prefix _).trans (List.prefix_append _ _)).trans (List.prefix_append _ _)
      exact (List.prefix_iff_eq_take.mp hpre).symm
    rw [hn, htake, ← List.prefix_iff_eq_take]
    refine ⟨fun h => ⟨hempty, ?_⟩, fun h => h.2.trans (List.prefix_append _ _)⟩
    rcases List.prefix_concat_iff.mp h with heq | hpre
    · refine absurd ?_ r.method.nulFree
      exact List.mem_of_mem_dropLast (heq ▸ by simp)
    · exact hpre

theorem methodOf_eq (r : HttpRequest) {m : Cells UInt8} (hm : Holds m r.text)
    (hlen : r.method.bytes.length < 2 ^ 64) :
    methodOf m r.method.bytes.length = .ok (recognised r.method.bytes) := by
  have hget := strncmpUpTo_method r hm (by decide) (show 0 ∉ (71 : UInt8) :: [69, 84] by decide) hlen
  have hpost := strncmpUpTo_method r hm (by decide)
    (show 0 ∉ (80 : UInt8) :: [79, 83, 84] by decide) hlen
  have hgetName : bytesOf "GET" = [71, 69, 84] := by decide
  have hpostName : bytesOf "POST" = [80, 79, 83, 84] := by decide
  unfold methodOf recognised
  dsimp only
  rw [hgetName, hpostName, hget, hpost]
  by_cases hg : r.method.bytes ≠ [] ∧ r.method.bytes.dropLast <+: [71, 69, 84]
  · rw [decide_eq_true hg, if_pos hg]
    rfl
  · rw [decide_eq_false hg, if_neg hg]
    by_cases hp : r.method.bytes ≠ [] ∧ r.method.bytes.dropLast <+: [80, 79, 83, 84]
    · rw [decide_eq_true hp, if_pos hp]
      rfl
    · rw [decide_eq_false hp, if_neg hp]
      rfl

theorem isRequest_eq (r : HttpRequest) {m : Cells UInt8} (hm : Holds m r.text) :
    isRequest m = .ok true := by
  have hhttp := hm.strncmp_eq (show 0 ∉ bytesOf "HTTP/" by decide)
  have hrtsp := hm.strncmp_eq (show 0 ∉ bytesOf "RTSP/" by decide)
  rw [HttpRequest.text, decide_eq_false r.not_http] at hhttp
  rw [HttpRequest.text, decide_eq_false r.not_rtsp] at hrtsp
  rw [isRequest, hhttp, ok_bind, hrtsp]
  rfl

/-- Setting an output to a text that a block holds. -/
theorem setOutput_sets {pbOutput : Option Buffer} (hb : ∀ b ∈ pbOutput, Usable b)
    {src : Cells UInt8} {lBufferLength : ℤ} {t : List UInt8}
    (hset : ∀ b, Usable b →
      Buffer.EndsWith (b.setBuffer (some src) lBufferLength) .errNoError (some t)) :
    setOutput pbOutput src lBufferLength = .error .badAlloc ∨
      ∃ pbOutput', setOutput pbOutput src lBufferLength = .ok (.errNoError, pbOutput') ∧
        SetTo pbOutput pbOutput' t := by
  cases pbOutput with
  | none => exact Or.inr ⟨none, rfl, trivial⟩
  | some b =>
    rcases hset b (hb b rfl) with hbad | ⟨b', hb', hsim⟩
    · exact Or.inl (by rw [setOutput, hbad, error_bind])
    · exact Or.inr ⟨some b', by rw [setOutput, hb', ok_bind]; rfl, hsim⟩

theorem parseHeaders_sets (r : HttpRequest) {m : Cells UInt8} (hm : Holds m r.text)
    (hmHttpMethod : HttpMethod) (pbURL : Option Buffer) {pbHeaders : Option Buffer}
    (hb : ∀ b ∈ pbHeaders, Usable b) :
    parseHeaders m hmHttpMethod pbURL pbHeaders = .error .badAlloc ∨
      ∃ pbHeaders', parseHeaders m hmHttpMethod pbURL pbHeaders
          = .ok ⟨.errNoError, hmHttpMethod, pbURL, pbHeaders'⟩ ∧
        SetTo pbHeaders pbHeaders' r.headers.bytes := by
  cases pbHeaders with
  | none => exact Or.inr ⟨none, rfl, trivial⟩
  | some b =>
    have hcut := r.text_eq_line
    have hchr : strchr m 10 = .ok (some r.line.length) := by
      rw [hm.strchr_eq, if_neg (by decide), hcut, if_pos (by simp),
        List.idxOf_append_of_notMem r.line_oneLine, List.idxOf_cons_self, Nat.add_zero]
    have hrest : Holds (m.drop (r.line.length + 1)) r.headers.bytes := by
      have hdrop := hm.drop (i := r.line.length + 1) (by rw [hcut]; simp)
      have hbehind : r.text.drop (r.line.length + 1) = r.headers.bytes := by
        rw [hcut, ← List.drop_drop, List.drop_left, List.drop_one, List.tail_cons]
      rwa [hbehind] at hdrop
    unfold parseHeaders
    dsimp only
    rw [hchr, ok_bind]
    dsimp only
    rcases setOutput_sets hb fun b hb => by
        rcases hb with hidle | ⟨s, hc⟩
        · exact Buffer.setBuffer_idle hidle hrest
        · exact Buffer.setBuffer_initialized hc hrest with hbad | ⟨pbHeaders', hset, hto⟩
    · exact Or.inl (by rw [hbad, error_bind])
    · exact Or.inr ⟨pbHeaders', by rw [hset, ok_bind]; rfl, hto⟩

/-- A buffer whose storage is a string and its NUL. -/
def holding (s : CStr) : Buffer :=
  ⟨.initialized, true, s.bytes.length + 1, 1, s.bytes.length, s.cells⟩

theorem holding_simulates (s : CStr) (h : s.bytes.length + 1 ≤ maxAllocation) :
    Buffer.Simulates (holding s) (some s.bytes) := by
  refine ⟨⟨rfl, rfl, Nat.one_pos, Nat.succ_ne_zero _, ?_, ?_, rfl, ⟨[], rfl⟩⟩, s.nulFree⟩
  · simp [holding, Buffer.capacity, CStr.cells]
  · simpa [holding, Buffer.capacity] using h

/-- **What `parseHttpHeader` computes.**  The method is the one the comparisons find; the other two
outputs are those of the request. -/
theorem parseHttpHeader_computes (r : HttpRequest) {b : Buffer}
    (hb : Buffer.Simulates b (some r.text)) (hmHttpMethod : HttpMethod)
    {pbURL pbHeaders : Option Buffer} (hurl : ∀ b ∈ pbURL, Usable b)
    (hheaders : ∀ b ∈ pbHeaders, Usable b) :
    parseHttpHeader b hmHttpMethod pbURL pbHeaders = .error .badAlloc ∨
      ∃ pbURL' pbHeaders', parseHttpHeader b hmHttpMethod pbURL pbHeaders
          = .ok ⟨.errNoError, recognised r.method.bytes, pbURL', pbHeaders'⟩ ∧
        SetTo pbURL pbURL' r.url.bytes ∧ SetTo pbHeaders pbHeaders' r.headers.bytes := by
  have hm := str_holds hb
  have hlen : r.method.bytes.length < 2 ^ 64 := by
    have hlt := hb.1.length_lt
    simp only [HttpRequest.text, requestText, List.length_append] at hlt
    omega
  -- the two cuts
  have hspace : strchr b.str 32 = .ok (some r.method.bytes.length) := by
    rw [hm.strchr_eq, if_neg (by decide), HttpRequest.text, requestText, if_pos (by simp),
      List.idxOf_append_of_notMem r.method_spaceless, List.idxOf_cons_self, Nat.add_zero]
  have hrest : Holds (b.str.drop (r.method.bytes.length + 1))
      (r.url.bytes ++ (bytesOf " HTTP/" ++ (r.version.bytes ++ 13 :: 10 :: r.headers.bytes))) := by
    have hdrop := hm.drop (i := r.method.bytes.length + 1)
      (by simp [HttpRequest.text, requestText])
    have hbehind : r.text.drop (r.method.bytes.length + 1) = r.url.bytes ++
        (bytesOf " HTTP/" ++ (r.version.bytes ++ 13 :: 10 :: r.headers.bytes)) := by
      rw [HttpRequest.text, requestText, ← List.drop_drop, List.drop_left, List.drop_one,
        List.tail_cons]
    rwa [hbehind] at hdrop
  have hfound : strstr (b.str.drop (r.method.bytes.length + 1)) (bytesOf " HTTP/")
      = .ok (some r.url.bytes.length) := by
    rw [hrest.strstr_eq (by decide)]
    exact congrArg Except.ok
      (findSub_behind (show (32 : UInt8) ∉ bytesOf "HTTP/" by decide) r.url_ends _)
  unfold parseHttpHeader
  dsimp only
  rw [isRequest_eq r hm, ok_bind, if_pos rfl, hspace, ok_bind]
  dsimp only
  rw [hfound, ok_bind]
  dsimp only
  rw [methodOf_eq r hm hlen, ok_bind]
  rcases setOutput_sets hurl (t := r.url.bytes) fun u hu => by
      have hset := Buffer.setBuffer_part hu hrest (n := r.url.bytes.length) (by simp)
      rwa [List.take_left] at hset with hbad | ⟨pbURL', hset, hto⟩
  · exact Or.inl (by rw [hbad, error_bind])
  rw [hset, ok_bind]
  dsimp only
  rw [if_neg (by simp)]
  rcases parseHeaders_sets r hm (recognised r.method.bytes) pbURL' hheaders with
    hbad | ⟨pbHeaders', hparse, hto'⟩
  · exact Or.inl hbad
  · exact Or.inr ⟨pbURL', pbHeaders', hparse, hto, hto'⟩

/-- **The request is told right**: the call succeeds, with the method that the name stands for, the
URL and the text behind the first line. -/
structure ToldRight (r : HttpRequest) (pbURL pbHeaders : Option Buffer) (out : ParsedHeader) :
    Prop where
  succeeds : out.err = .errNoError
  method : out.hmHttpMethod = HttpMethod.named r.method.bytes
  url : SetTo pbURL out.pbURL r.url.bytes
  headers : SetTo pbHeaders out.pbHeaders r.headers.bytes

/-- **`parseHttpHeader` is right exactly where the method is no near miss** of `GET` or `POST`. -/
theorem parseHttpHeader_right_iff (r : HttpRequest) {b : Buffer}
    (hb : Buffer.Simulates b (some r.text)) (hmHttpMethod : HttpMethod)
    {pbURL pbHeaders : Option Buffer} (hurl : ∀ b ∈ pbURL, Usable b)
    (hheaders : ∀ b ∈ pbHeaders, Usable b) :
    parseHttpHeader b hmHttpMethod pbURL pbHeaders = .error .badAlloc ∨
      ∃ out, parseHttpHeader b hmHttpMethod pbURL pbHeaders = .ok out ∧
        (ToldRight r pbURL pbHeaders out ↔ NoNearMiss r.method.bytes) := by
  rcases parseHttpHeader_computes r hb hmHttpMethod hurl hheaders with
    hbad | ⟨pbURL', pbHeaders', hparse, hto, hto'⟩
  · exact Or.inl hbad
  · refine Or.inr ⟨_, hparse, ?_⟩
    rw [← recognised_eq_named_iff]
    exact ⟨fun h => h.method, fun h => ⟨rfl, h, hto, hto'⟩⟩

theorem rootUrl_nulFree : (0 : UInt8) ∉ [47] := by decide

theorem emptyLine_nulFree : (0 : UInt8) ∉ [13, 10] := by decide

/-- A request for `/` by the method `PUT`. -/
def putRequest : HttpRequest where
  method := ⟨bytesOf "PUT", by decide⟩
  url := ⟨[47], rootUrl_nulFree⟩
  version := ⟨bytesOf "1.1", by decide⟩
  headers := ⟨[13, 10], emptyLine_nulFree⟩
  method_spaceless := by decide
  url_ends := by decide
  method_line := by decide
  url_line := by decide
  version_line := by decide
  not_http := by decide
  not_rtsp := by decide

/-- The request above, with new buffers for the URL and the headers. -/
theorem parseHttpHeader_right_iff_put :
    parseHttpHeader (holding ⟨putRequest.text, putRequest.text_nulFree⟩) .undefined
        (some .built) (some .built) = .error .badAlloc ∨
      ∃ out, parseHttpHeader (holding ⟨putRequest.text, putRequest.text_nulFree⟩) .undefined
          (some .built) (some .built) = .ok out ∧
        (ToldRight putRequest (some .built) (some .built) out
          ↔ NoNearMiss putRequest.method.bytes) :=
  parseHttpHeader_right_iff putRequest
    (holding_simulates ⟨putRequest.text, putRequest.text_nulFree⟩ (by decide)) .undefined
    (fun _ hb => Option.mem_some.mp hb ▸ Or.inl Buffer.built_idle)
    (fun _ hb => Option.mem_some.mp hb ▸ Or.inl Buffer.built_idle)

/-- A request for `/` by a method `P`. -/
def letterRequest : HttpRequest where
  method := ⟨[80], by decide⟩
  url := ⟨[47], rootUrl_nulFree⟩
  version := ⟨bytesOf "1.1", by decide⟩
  headers := ⟨[13, 10], emptyLine_nulFree⟩
  method_spaceless := by decide
  url_ends := by decide
  method_line := by decide
  url_line := by decide
  version_line := by decide
  not_http := by decide
  not_rtsp := by decide

/-- **The method `P` is reported as GET**, in a request that is otherwise read as it should be. -/
theorem not_toldRight_of_letter :
    ∃ out, parseHttpHeader (holding ⟨letterRequest.text, letterRequest.text_nulFree⟩) .undefined
        none none = .ok out ∧
      out.hmHttpMethod = .get ∧ HttpMethod.named letterRequest.method.bytes = .undefined ∧
      ¬ToldRight letterRequest none none out := by
  refine ⟨⟨.errNoError, .get, none, none⟩, by rfl, rfl, by decide, fun h => ?_⟩
  exact absurd h.method (by decide)

end WebUtility

end CatraLibraries
