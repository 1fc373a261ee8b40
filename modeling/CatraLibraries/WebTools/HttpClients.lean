/-
# The requests of the clients

`HttpGetThread::init`, `HttpPostThread::init` and the beginnings of their `run` methods
(`WebTools/src/HttpGetThread.cpp`, `WebTools/src/HttpPostThread.cpp`): the requests are put together in
buffers and written to the socket.

A `ClientRequest` is what a client may ask for: its texts are without line ends, and the URL does not
hold the text that ends a URL.  `send_spec` says what is then written, and `exchange` that the server
on the other side of the connections gets these requests, with their methods, cookies and bodies.
Connecting, and the buffers for the response, are left out.
-/
import Mathlib.Data.List.Forall2
import CatraLibraries.ErrMsg.BuildMessage
import CatraLibraries.WebTools.HttpServer

namespace CatraLibraries

open Memory CString Substring

namespace WebUtility

/-! ### The code -/

/-- The arguments that both `init` methods take; the last three texts may be `NULL`. -/
structure RequestArguments where
  pWebServer : CStr
  lWebServerPort : ℤ
  pURI : CStr
  pURLParameters : Option CStr
  pCookie : Option CStr
  pUserAgent : Option CStr
  lProxyPort : ℤ

/-- The errors of the `init` methods. -/
inductive ClientError
  | errNoError
  | activationWrong
  | bufferInitFailed
  | bufferAppendFailed
  deriving DecidableEq, Repr

/-- A string of the source. -/
def quoted (s : String) : CStr := ⟨visible (bytesOf s), zero_notMem_visible _⟩

/-- An argument that is neither `NULL` nor empty. -/
def given (pValue : Option CStr) : Option CStr := pValue.filter fun s => s.bytes ≠ []

/-- `append`, for one text behind the other. -/
def appendEach : List CStr → Buffer → Except Fault (ClientError × Buffer)
  | [], b => .ok (.errNoError, b)
  | s :: ss, b => do
    let (err, b) ← b.append (some s.cells) (-1)
    if err ≠ .errNoError then return (.bufferAppendFailed, b) else appendEach ss b

/-- A buffer with a text, and others behind it. -/
def putTogether (s : CStr) (ss : List CStr) : Except Fault (ClientError × Buffer) := do
  let (err, b) ← Buffer.built.init (some s.cells) (-1) defaultBufferBlockNumberOnOverflow
  if err ≠ .errNoError then return (.bufferInitFailed, b) else appendEach ss b

namespace HttpGetThread

/-- `SCK_MAXHOSTNAMELENGTH`. -/
def maxHostNameLength : ℕ := 128 + 1

/-- What `init` appends. -/
def pieces (a : RequestArguments) : List CStr :=
  [a.pURI] ++ a.pURLParameters.toList ++
    [quoted " HTTP/1.0\r\nAccept: */*\r\nHost: ", a.pWebServer, quoted ":",
      ErrMsg.printLd a.lWebServerPort] ++
    (given a.pCookie).toList.flatMap (fun pCookie => [quoted "\r\nCookie: ", pCookie]) ++
    [quoted "\r\nUser-Agent: ", (given a.pUserAgent).getD (quoted "CatraGetHttp"),
      quoted "\r\n\r\n"]

/-- `init`: `_bHttpGetRequest`. -/
def init (a : RequestArguments) : Except Fault (ClientError × Buffer) :=
  if maxHostNameLength ≤ a.pWebServer.bytes.length ∨ a.lWebServerPort ≤ 0 ∨ a.lProxyPort ≤ 0 then
    .ok (.activationWrong, .built)
  else putTogether (quoted "GET ") (pieces a)

end HttpGetThread

namespace HttpPostThread

/-- What `init` appends to the header. -/
def pieces (a : RequestArguments) (pHttpPostBodyRequest : CStr) : List CStr :=
  [a.pURI] ++ a.pURLParameters.toList ++ [quoted " HTTP/1.0\r\nConnection: close"] ++
    (given a.pCookie).toList.flatMap (fun pCookie => [quoted "\r\nCookie: ", pCookie]) ++
    (given a.pUserAgent).toList.flatMap
      (fun pUserAgent => [quoted "\r\nUser-Agent: ", pUserAgent]) ++
    [quoted "\r\nAccept: */*\r\nHost: ", a.pWebServer, quoted ":",
      ErrMsg.printLd a.lWebServerPort, quoted "\r\nContent-Length: ",
      ErrMsg.printLd pHttpPostBodyRequest.bytes.length, quoted "\r\n\r\n"]

/-- `init`: `_bHttpPostHeaderRequest` and `_bHttpPostBodyRequest`. -/
def init (a : RequestArguments) (pHttpPostBodyRequest : CStr) :
    Except Fault (ClientError × Buffer × Buffer) :=
  if a.lWebServerPort ≤ 0 ∨ a.lProxyPort ≤ 0 then .ok (.activationWrong, .built, .built)
  else do
    let (err, bHttpPostHeaderRequest) ←
      putTogether (quoted "POST ") (pieces a pHttpPostBodyRequest)
    if err ≠ .errNoError then return (err, bHttpPostHeaderRequest, .built)
    else
      let (err, bHttpPostBodyRequest) ← putTogether pHttpPostBodyRequest []
      return (err, bHttpPostHeaderRequest, bHttpPostBodyRequest)

end HttpPostThread

/-- A client: a thread that gets, or one that posts a body. -/
inductive HttpClient
  | get (a : RequestArguments)
  | post (a : RequestArguments) (pHttpPostBodyRequest : CStr)

/-- `init` and the `writeString` calls of `run`: the bytes on the connection. -/
def HttpClient.send : HttpClient → Except Fault (ClientError × List UInt8)
  | .get a => do
    let (err, bHttpGetRequest) ← HttpGetThread.init a
    if err ≠ .errNoError then return (err, [])
    else return (.errNoError, ← cstr bHttpGetRequest.str)
  | .post a pHttpPostBodyRequest => do
    let (err, bHttpPostHeaderRequest, bHttpPostBodyRequest) ←
      HttpPostThread.init a pHttpPostBodyRequest
    if err ≠ .errNoError then return (err, [])
    else
      let header ← cstr bHttpPostHeaderRequest.str
      let body ← cstr bHttpPostBodyRequest.str
      return (.errNoError, header ++ body)

/-! ### What a client may ask for -/

/-- A text without line ends. -/
structure LineText where
  text : CStr
  line : 10 ∉ text.bytes ∧ 13 ∉ text.bytes

/-- The texts of a URL. -/
def urlOf (uri : LineText) (parameters : Option LineText) : List UInt8 :=
  uri.text.bytes ++ parameters.toList.flatMap (·.text.bytes)

/-- **A request that a client may ask for**. -/
structure ClientRequest where
  server : LineText
  port : ℤ
  uri : LineText
  parameters : Option LineText
  cookie : Option LineText
  userAgent : Option LineText
  proxyPort : ℤ
  server_fits : server.text.bytes.length < HttpGetThread.maxHostNameLength
  port_pos : 0 < port
  proxyPort_pos : 0 < proxyPort
  url_ends : ¬bytesOf " HTTP/" <:+: urlOf uri parameters

namespace ClientRequest

variable (q : ClientRequest)

/-- The arguments for the code. -/
def arguments : RequestArguments :=
  ⟨q.server.text, q.port, q.uri.text, q.parameters.map (·.text), q.cookie.map (·.text),
    q.userAgent.map (·.text), q.proxyPort⟩

def url : List UInt8 := urlOf q.uri q.parameters

/-- A text that is not empty. -/
def present (value : Option LineText) : Option LineText := value.filter fun s => s.text.bytes ≠ []

theorem given_map (value : Option LineText) :
    given (value.map (·.text)) = (present value).map (·.text) :=
  Option.filter_map

theorem line_number (n : ℤ) : 10 ∉ (ErrMsg.printLd n).bytes ∧ 13 ∉ (ErrMsg.printLd n).bytes := by
  have hdigits : ∀ c ∈ Stdio.printLld n, c = '-' ∨ c.isDigit = true := by
    intro c hc
    unfold Stdio.printLld at hc
    split at hc
    · rcases List.mem_cons.mp hc with rfl | hc
      · exact Or.inl rfl
      · exact Or.inr (Nat.isDigit_of_mem_toDigits (by decide) (by decide) hc)
    · exact Or.inr (Nat.isDigit_of_mem_toDigits (by decide) (by decide) hc)
  have hbyte : ∀ c ∈ Stdio.printLld n, 45 ≤ (UInt8.ofNat c.toNat).toNat := by
    intro c hc
    rcases hdigits c hc with rfl | h
    · decide
    · obtain ⟨hlow, hhigh⟩ := Stdio.isDigit_bounds h
      rw [UInt8.toNat_ofNat']
      omega
  refine ⟨fun h => ?_, fun h => ?_⟩
  · obtain ⟨c, hc, heq⟩ := List.mem_map.mp h
    exact absurd (hbyte c hc) (by rw [heq]; decide)
  · obtain ⟨c, hc, heq⟩ := List.mem_map.mp h
    exact absurd (hbyte c hc) (by rw [heq]; decide)

end ClientRequest

/-! ### The text of a request -/

/-- The methods of the two threads. -/
inductive Verb
  | get
  | post
  deriving DecidableEq, Repr

def Verb.name : Verb → CStr
  | .get => quoted "GET"
  | .post => quoted "POST"

def Verb.method : Verb → HttpMethod
  | .get => .get
  | .post => .post

theorem Verb.recognised_name (verb : Verb) : recognised verb.name.bytes = verb.method := by
  cases verb with
  | get => decide
  | post => decide

theorem Verb.name_free (verb : Verb) : ∀ c ∈ [(32 : UInt8), 58, 10, 13], c ∉ verb.name.bytes := by
  cases verb with
  | get => decide +kernel
  | post => decide +kernel

def acceptName : FieldName :=
  ⟨⟨bytesOf "Accept", by decide⟩, by decide, by decide, by decide, by decide⟩

def hostName : FieldName :=
  ⟨⟨bytesOf "Host", by decide⟩, by decide, by decide, by decide, by decide⟩

def userAgentName : FieldName :=
  ⟨⟨bytesOf "User-Agent", by decide⟩, by decide, by decide, by decide, by decide⟩

def connectionName : FieldName :=
  ⟨⟨bytesOf "Connection", by decide⟩, by decide, by decide, by decide, by decide⟩

/-- A field as the clients write it. -/
def field (name : FieldName) (value : LineText) : HeaderField :=
  ⟨name, [32], value.text, oneBlank_blank, value.line⟩

theorem spelled_field {name name' : FieldName} {value : LineText} :
    Spelled name (field name' value) ↔ name'.text.bytes = name.text.bytes :=
  and_iff_left rfl

theorem text_field (name : FieldName) (value : LineText) :
    (field name value).text = name.text.bytes ++ 58 :: 32 :: value.text.bytes := rfl

theorem tail_behind_field (name : FieldName) (value : LineText) :
    (field name value).behind.tail = value.text.bytes := rfl

/-- The fields of a block, each with the end of its line. -/
def fieldLines (fields : List HeaderField) : List UInt8 :=
  fields.flatMap fun f => f.text ++ [13, 10]

theorem fieldLines_nulFree (fields : List HeaderField) : 0 ∉ fieldLines fields ++ [13, 10] := by
  have htext : ∀ f : HeaderField, 0 ∉ f.text := fun f => by
    have hblanks : 0 ∉ f.blanks := fun h => by
      rcases f.blanks_blank 0 h with h | h
      · exact absurd h (by decide)
      · exact absurd h (by decide)
    simp only [HeaderField.text, HeaderField.behind, List.mem_append, List.mem_cons, not_or]
    exact ⟨f.name.text.nulFree, by decide, hblanks, f.value.nulFree⟩
  simp only [fieldLines, List.mem_append, List.mem_flatMap, not_or, not_exists, not_and]
  exact ⟨fun f _ => ⟨htext f, by decide⟩, by decide⟩

namespace ClientRequest

variable (q : ClientRequest)

theorem url_nulFree : 0 ∉ q.url := by
  unfold url urlOf
  cases q.parameters with
  | none => simpa using q.uri.text.nulFree
  | some p => simpa using ⟨q.uri.text.nulFree, p.text.nulFree⟩

theorem url_line : 10 ∉ q.url ∧ 13 ∉ q.url := by
  unfold url urlOf
  cases q.parameters with
  | none => simpa using q.uri.line
  | some p =>
    have hu := q.uri.line
    have hp := p.line
    simp only [Option.toList_some, List.flatMap_cons, List.flatMap_nil, List.append_nil,
      List.mem_append, not_or]
    exact ⟨⟨hu.1, hp.1⟩, hu.2, hp.2⟩

theorem version_free : ∀ c ∈ [(0 : UInt8), 10, 13], c ∉ bytesOf " HTTP/1.0" := by decide +kernel

/-- The header block of a request. -/
def block (verb : Verb) (fields : List HeaderField) : HeaderBlock where
  startLine := ⟨verb.name.bytes ++ 32 :: (q.url ++ bytesOf " HTTP/1.0"), by
    simp only [List.mem_append, List.mem_cons, not_or]
    exact ⟨verb.name.nulFree, by decide, q.url_nulFree, version_free 0 (by simp)⟩⟩
  fields := fields
  closed := true
  startLine_line := by
    simp only [List.mem_append, List.mem_cons, not_or]
    exact ⟨⟨verb.name_free 10 (by simp), by decide, q.url_line.1, version_free 10 (by simp)⟩,
      verb.name_free 13 (by simp), by decide, q.url_line.2, version_free 13 (by simp)⟩
  startLine_word := by
    have hspace : ∀ c ∈ verb.name.bytes, decide (c ≠ 32) = true := fun c hc =>
      decide_eq_true fun h => verb.name_free 32 (by simp) (h ▸ hc)
    rw [List.takeWhile_append_of_pos hspace, List.takeWhile_cons_of_neg (by simp), List.append_nil]
    exact verb.name_free 58 (by simp)

theorem text_block (verb : Verb) (fields : List HeaderField) :
    (q.block verb fields).text =
      verb.name.bytes ++ 32 :: (q.url ++ (bytesOf " HTTP/1.0" ++
        13 :: 10 :: (fieldLines fields ++ [13, 10]))) := by
  rw [(q.block verb fields).text_eq rfl]
  simp [block, fieldLines]

/-- The request. -/
def request (verb : Verb) (fields : List HeaderField) : HttpRequest where
  method := verb.name
  url := ⟨q.url, q.url_nulFree⟩
  version := quoted "1.0"
  headers := ⟨fieldLines fields ++ [13, 10], fieldLines_nulFree fields⟩
  method_spaceless := verb.name_free 32 (by simp)
  url_ends := q.url_ends
  method_line := verb.name_free 10 (by simp)
  url_line := q.url_line.1
  version_line := by decide
  not_http := by
    cases verb with
    | get => exact fun h => absurd (List.cons_prefix_cons.mp h).1 (by decide)
    | post => exact fun h => absurd (List.cons_prefix_cons.mp h).1 (by decide)
  not_rtsp := by
    cases verb with
    | get => exact fun h => absurd (List.cons_prefix_cons.mp h).1 (by decide)
    | post => exact fun h => absurd (List.cons_prefix_cons.mp h).1 (by decide)

theorem text_request (verb : Verb) (fields : List HeaderField) :
    (q.request verb fields).text = (q.block verb fields).text := by
  have hversion : bytesOf " HTTP/1.0" = bytesOf " HTTP/" ++ (quoted "1.0").bytes := by decide
  rw [text_block, hversion]
  simp [HttpRequest.text, requestText, request]

end ClientRequest

/-! ### What is sent -/

/-- A text of the source without line ends. -/
def anyType : LineText := ⟨quoted "*/*", by decide⟩

def catraGetHttp : LineText := ⟨quoted "CatraGetHttp", by decide⟩

def close : LineText := ⟨quoted "close", by decide⟩

/-- A number. -/
def numberText (n : ℤ) : LineText := ⟨ErrMsg.printLd n, ClientRequest.line_number n⟩

namespace ClientRequest

variable (q : ClientRequest)

theorem host_free : 0 ∉ q.server.text.bytes ++ 58 :: (numberText q.port).text.bytes ∧
    10 ∉ q.server.text.bytes ++ 58 :: (numberText q.port).text.bytes ∧
      13 ∉ q.server.text.bytes ++ 58 :: (numberText q.port).text.bytes := by
  have hserver := q.server.line
  have hport := (numberText q.port).line
  simp only [List.mem_append, List.mem_cons, not_or]
  exact ⟨⟨q.server.text.nulFree, by decide, (numberText q.port).text.nulFree⟩,
    ⟨hserver.1, by decide, hport.1⟩, hserver.2, by decide, hport.2⟩

/-- The server, with its port. -/
def host : LineText :=
  ⟨⟨q.server.text.bytes ++ 58 :: (numberText q.port).text.bytes, q.host_free.1⟩, q.host_free.2⟩

def getFields : List HeaderField :=
  [field acceptName anyType, field hostName q.host] ++
    (present q.cookie).toList.map (field cookieName) ++
    [field userAgentName ((present q.userAgent).getD catraGetHttp)]

def postFields (body : CStr) : List HeaderField :=
  [field connectionName close] ++ (present q.cookie).toList.map (field cookieName) ++
    (present q.userAgent).toList.map (field userAgentName) ++
    [field acceptName anyType, field hostName q.host,
      field contentLengthName (numberText body.bytes.length)]

/-- The request of a GET thread. -/
def getRequest : HttpRequest := q.request .get q.getFields

/-- The request of a POST thread. -/
def postRequest (body : CStr) : HttpRequest := q.request .post (q.postFields body)

/-- The cookie that is sent, empty for none. -/
def sentCookie : List UInt8 := ((present q.cookie).map (·.text.bytes)).getD []

theorem cookieOf_get : cookieOf (q.block .get q.getFields) = q.sentCookie := by
  unfold cookieOf sentCookie block getFields
  cases present q.cookie with
  | none => simp +decide [spelled_field]
  | some c => simp +decide [spelled_field, tail_behind_field]

theorem cookieOf_post (body : CStr) : cookieOf (q.block .post (q.postFields body)) = q.sentCookie := by
  unfold cookieOf sentCookie block postFields
  cases present q.cookie with
  | none =>
    cases present q.userAgent with
    | none => simp +decide [spelled_field]
    | some a => simp +decide [spelled_field]
  | some c => simp +decide [spelled_field, tail_behind_field]

/-- The digits of the length. -/
theorem decimal_number (n : ℕ) : Decimal (ErrMsg.printLd n).bytes n := by
  have hprint : Stdio.printLld n = Stdio.printLu 0 n := by
    unfold Stdio.printLld Stdio.printLu List.leftpad
    rw [if_neg (by omega), Nat.zero_sub, List.replicate_zero, List.nil_append, Int.natAbs_natCast]
  have hchars : chars (ErrMsg.printLd n).bytes = Stdio.printLu 0 n := by
    unfold chars ErrMsg.printLd
    rw [List.map_map, hprint]
    refine (List.map_congr_left fun c hc => ?_).trans (List.map_id _)
    obtain ⟨hlow, hhigh⟩ := Stdio.isDigit_bounds ((Stdio.printLu_isNumeral 0 n).2 c hc)
    have hsmall : (UInt8.ofNat c.toNat).toNat = c.toNat := by
      rw [UInt8.toNat_ofNat']
      omega
    rw [Function.comp_apply, hsmall, Char.ofNat_toNat, id]
  refine ⟨?_, ?_⟩
  · rw [hchars]
    exact Stdio.printLu_isNumeral 0 n
  · rw [hchars]
    exact Stdio.decimal_printLu 0 n

theorem lengthIs_post (body : CStr) :
    LengthIs (q.block .post (q.postFields body)) body.bytes.length := by
  refine ⟨field contentLengthName (numberText body.bytes.length), _, ?_, rfl,
    decimal_number body.bytes.length⟩
  unfold block postFields
  cases present q.cookie with
  | none =>
    cases present q.userAgent with
    | none => simp +decide [spelled_field]
    | some a => simp +decide [spelled_field]
  | some c =>
    cases present q.userAgent with
    | none => simp +decide [spelled_field]
    | some a => simp +decide [spelled_field]

end ClientRequest

/-- One text is put behind the other. -/
theorem appendEach_spec (ss : List CStr) {b : Buffer} {s : List UInt8}
    (h : Buffer.Simulates b (some s)) :
    appendEach ss b = .error .badAlloc ∨
      ∃ b', appendEach ss b = .ok (.errNoError, b') ∧
        Buffer.Simulates b' (some (s ++ ss.flatMap (·.bytes))) := by
  induction ss generalizing b s with
  | nil => exact Or.inr ⟨b, rfl, by simpa using h⟩
  | cons t ss ih =>
    unfold appendEach
    rcases Buffer.append_simulates h.1 h.2 t.holds with hbad | ⟨b', hb', hsim⟩
    · exact Or.inl (by rw [hbad, error_bind])
    · rw [hb', ok_bind, List.flatMap_cons, ← List.append_assoc]
      exact ih hsim

theorem putTogether_spec (s : CStr) (ss : List CStr) :
    putTogether s ss = .error .badAlloc ∨
      ∃ b, putTogether s ss = .ok (.errNoError, b) ∧
        Buffer.Simulates b (some (s.bytes ++ ss.flatMap (·.bytes))) := by
  unfold putTogether
  rcases Buffer.init_simulates Buffer.built_idle s.holds
    (show 0 < defaultBufferBlockNumberOnOverflow by decide) with hbad | ⟨b, hb, hsim⟩
  · exact Or.inl (by rw [hbad, error_bind])
  · rw [hb, ok_bind]
    exact appendEach_spec ss hsim

namespace ClientRequest

variable (q : ClientRequest)

theorem flatMap_parameters :
    (q.parameters.map (·.text)).toList.flatMap (·.bytes) =
      q.parameters.toList.flatMap (·.text.bytes) := by
  rw [Option.toList_map, List.flatMap_map]

/-- An argument that may be missing is a field that may be missing; the line end in front of its name is
the one of the field before. -/
theorem optional_pieces {key : CStr} {name : FieldName}
    (hkey : key.bytes = 13 :: 10 :: (name.text.bytes ++ [58, 32])) (value : Option LineText)
    (rest : List UInt8) :
    ((given (value.map (·.text))).toList.flatMap fun s => [key, s]).flatMap (·.bytes) ++
        13 :: 10 :: rest =
      13 :: 10 :: (fieldLines ((present value).toList.map (field name)) ++ rest) := by
  rw [given_map]
  cases present value with
  | none => rfl
  | some s => simp [hkey, fieldLines, text_field]

theorem quoted_cookie :
    (quoted "\r\nCookie: ").bytes = 13 :: 10 :: (cookieName.text.bytes ++ [58, 32]) := by
  decide

theorem quoted_userAgent :
    (quoted "\r\nUser-Agent: ").bytes = 13 :: 10 :: (userAgentName.text.bytes ++ [58, 32]) := by decide

theorem quoted_colon : (quoted ":").bytes = [58] := by decide

theorem quoted_end : (quoted "\r\n\r\n").bytes = [13, 10, 13, 10] := by decide

/-- The pieces of a GET request are its text. -/
theorem getRequest_text :
    (quoted "GET ").bytes ++ (HttpGetThread.pieces q.arguments).flatMap (·.bytes) =
      q.getRequest.text := by
  have hget : (quoted "GET ").bytes = Verb.get.name.bytes ++ [32] := by decide
  have hhost : (quoted " HTTP/1.0\r\nAccept: */*\r\nHost: ").bytes = bytesOf " HTTP/1.0" ++
      13 :: 10 :: (acceptName.text.bytes ++ 58 :: 32 :: (anyType.text.bytes ++
        13 :: 10 :: (hostName.text.bytes ++ [58, 32]))) := by decide
  have hdefault : ((given (q.userAgent.map (·.text))).getD (quoted "CatraGetHttp")).bytes =
      ((present q.userAgent).getD catraGetHttp).text.bytes := by
    rw [given_map]
    cases present q.userAgent with
    | none => rfl
    | some a => rfl
  rw [getRequest, text_request, text_block, hget]
  unfold HttpGetThread.pieces getFields url urlOf arguments
  simp only [List.flatMap_append, List.flatMap_cons, List.flatMap_nil, List.append_assoc,
    List.cons_append, List.nil_append, List.append_nil, hhost, quoted_colon, quoted_userAgent,
    quoted_end, hdefault, flatMap_parameters, optional_pieces quoted_cookie]
  simp [fieldLines, text_field, host, numberText]

/-- The pieces of a POST request are its text. -/
theorem postRequest_text (body : CStr) :
    (quoted "POST ").bytes ++ (HttpPostThread.pieces q.arguments body).flatMap (·.bytes) =
      (q.postRequest body).text := by
  have hpost : (quoted "POST ").bytes = Verb.post.name.bytes ++ [32] := by decide
  have hclose : (quoted " HTTP/1.0\r\nConnection: close").bytes = bytesOf " HTTP/1.0" ++
      13 :: 10 :: (connectionName.text.bytes ++ 58 :: 32 :: close.text.bytes) := by decide
  have hhost : (quoted "\r\nAccept: */*\r\nHost: ").bytes =
      13 :: 10 :: (acceptName.text.bytes ++ 58 :: 32 :: (anyType.text.bytes ++
        13 :: 10 :: (hostName.text.bytes ++ [58, 32]))) := by decide
  have hlength : (quoted "\r\nContent-Length: ").bytes =
      13 :: 10 :: (contentLengthName.text.bytes ++ [58, 32]) := by decide
  rw [postRequest, text_request, text_block, hpost]
  unfold HttpPostThread.pieces postFields url urlOf arguments
  simp only [List.flatMap_append, List.flatMap_cons, List.flatMap_nil, List.append_assoc,
    List.cons_append, List.nil_append, List.append_nil, hclose, hhost, quoted_colon, hlength,
    quoted_end, flatMap_parameters, optional_pieces quoted_cookie, optional_pieces quoted_userAgent]
  simp [fieldLines, text_field, host, numberText]

theorem getInit_spec :
    HttpGetThread.init q.arguments = .error .badAlloc ∨
      ∃ b, HttpGetThread.init q.arguments = .ok (.errNoError, b) ∧
        Buffer.Simulates b (some q.getRequest.text) := by
  have hport := q.port_pos
  have hproxy := q.proxyPort_pos
  have hserver := q.server_fits
  have hcheck : ¬(HttpGetThread.maxHostNameLength ≤ q.arguments.pWebServer.bytes.length ∨
      q.arguments.lWebServerPort ≤ 0 ∨ q.arguments.lProxyPort ≤ 0) := by
    dsimp only [arguments]
    omega
  unfold HttpGetThread.init
  rw [if_neg hcheck]
  rw [← q.getRequest_text]
  exact putTogether_spec (quoted "GET ") (HttpGetThread.pieces q.arguments)

theorem postInit_spec (body : CStr) :
    HttpPostThread.init q.arguments body = .error .badAlloc ∨
      ∃ b b', HttpPostThread.init q.arguments body = .ok (.errNoError, b, b') ∧
        Buffer.Simulates b (some (q.postRequest body).text) ∧
        Buffer.Simulates b' (some body.bytes) := by
  have hport := q.port_pos
  have hproxy := q.proxyPort_pos
  have hcheck : ¬(q.arguments.lWebServerPort ≤ 0 ∨ q.arguments.lProxyPort ≤ 0) := by
    dsimp only [arguments]
    omega
  unfold HttpPostThread.init
  rw [if_neg hcheck, ← q.postRequest_text]
  rcases putTogether_spec (quoted "POST ") (HttpPostThread.pieces q.arguments body) with
    hbad | ⟨b, hb, hsim⟩
  · exact Or.inl (by rw [hbad, error_bind])
  rcases putTogether_spec body [] with hbad | ⟨b', hb', hsim'⟩
  · refine Or.inl ?_
    rw [hb, ok_bind]
    dsimp only
    rw [if_neg (fun h => h rfl), hbad, error_bind]
  · rw [List.flatMap_nil, List.append_nil] at hsim'
    refine Or.inr ⟨b, b', ?_, hsim, hsim'⟩
    rw [hb, ok_bind]
    dsimp only
    rw [if_neg (fun h => h rfl), hb', ok_bind]
    rfl

end ClientRequest

/-! ### The exchange -/

/-- What is asked for: a page, or that a body is taken. -/
inductive Asked
  | get (q : ClientRequest)
  | post (q : ClientRequest) (body : CStr)

namespace Asked

/-- The thread that asks. -/
def client : Asked → HttpClient
  | .get q => .get q.arguments
  | .post q body => .post q.arguments body

/-- The bytes of the request. -/
def sent : Asked → List UInt8
  | .get q => q.getRequest.text
  | .post q body => (q.postRequest body).text ++ body.bytes

/-- What a server makes of it. -/
def received : Asked → ReceivedRequest
  | .get q => ⟨.get, q.getRequest.text, [], q.sentCookie⟩
  | .post q body => ⟨.post, (q.postRequest body).text, body.bytes, q.sentCookie⟩

end Asked

/-- **The thread writes the request**, with the body behind its header; a body that is sent is no longer
than a block of memory. -/
theorem send_spec (a : Asked) :
    a.client.send = .error .badAlloc ∨
      a.client.send = .ok (.errNoError, a.sent) ∧ a.received.body.length < 2 ^ 63 := by
  cases a with
  | get q =>
    rcases q.getInit_spec with hbad | ⟨b, hb, hsim⟩
    · exact Or.inl (by rw [Asked.client, HttpClient.send, hbad, error_bind])
    · refine Or.inr ⟨?_, Nat.two_pow_pos 63⟩
      rw [Asked.client, HttpClient.send, hb, ok_bind]
      dsimp only
      rw [if_neg (fun h => h rfl), (str_holds hsim).cstr_eq, ok_bind]
      rfl
  | post q body =>
    rcases q.postInit_spec body with hbad | ⟨b, b', hb, hsim, hsim'⟩
    · exact Or.inl (by rw [Asked.client, HttpClient.send, hbad, error_bind])
    · refine Or.inr ⟨?_, ?_⟩
      · rw [Asked.client, HttpClient.send, hb, ok_bind]
        dsimp only
        rw [if_neg (fun h => h rfl), (str_holds hsim).cstr_eq, ok_bind,
          (str_holds hsim').cstr_eq, ok_bind]
        rfl
      · have hlt := hsim'.1.length_lt
        show body.bytes.length < 2 ^ 63
        omega

/-- **A request that is sent arrives as a complete one**, in every split that the header loop can
follow. -/
theorem Asked.complete {a : Asked} {bytes rest : List UInt8}
    (hsend : a.client.send = .ok (.errNoError, bytes)) {sock : Socket}
    (hunread : sock.unread = bytes ++ rest) (hsplits : ∃ blocks, SplitsWell sock blocks) :
    Complete sock a.received := by
  rcases send_spec a with hbad | ⟨hsent, hlong⟩
  · exact absurd (hbad.symm.trans hsend) (by simp)
  obtain rfl : bytes = a.sent := (Prod.mk.inj (Except.ok.inj (hsend.symm.trans hsent))).2
  cases a with
  | get q =>
    have hheader : HeaderComes sock q.getRequest.head (q.block .get q.getFields) rest :=
      ⟨(q.text_request .get q.getFields).symm, rfl, hunread, hsplits⟩
    have h := Complete.get hheader (Verb.recognised_name .get)
    rwa [q.cookieOf_get] at h
  | post q body =>
    have hheader : HeaderComes sock (q.postRequest body).head (q.block .post (q.postFields body))
        (body.bytes ++ rest) :=
      ⟨(q.text_request .post (q.postFields body)).symm, rfl,
        hunread.trans (List.append_assoc _ _ _), hsplits⟩
    have hmethod : (q.postRequest body).head.hmHttpMethod = .post := Verb.recognised_name .post
    have htake : (body.bytes ++ rest).take body.bytes.length = body.bytes := List.take_left
    have h := Complete.body hheader (by rw [hmethod]; decide) (q.lengthIs_post body) hlong
      (by rw [List.length_append]; omega) (by rw [htake]; exact body.nulFree)
    rwa [q.cookieOf_post, hmethod, htake] at h

/-- **A turn carries a request**: the connection brings what the thread has sent, in reads that the
header loop can follow, and perhaps more behind it; the request is handled, and the server goes on. -/
structure Carries (t : Turn) (a : Asked) : Prop where
  brings : ∃ csClientSocket bytes rest, t.accepted = .connection csClientSocket ∧
    a.client.send = .ok (.errNoError, bytes) ∧ csClientSocket.unread = bytes ++ rest ∧
    ∃ blocks, SplitsWell csClientSocket blocks
  works : t.httpReceivedWorks = true
  goes : t.bIsShutdown = false
  keeps : ∀ b, b.InUse → (t.httpReceived b).InUse

/-- The visit of a client. -/
def visitOf (a : Asked) : Visit := ⟨.complete a.received, true, false⟩

theorem Carries.is {t : Turn} {a : Asked} (h : Carries t a) : t.Is (visitOf a) := by
  obtain ⟨sock, bytes, rest, haccepted, hsend, hunread, hsplits⟩ := h.brings
  refine ⟨?_, h.works, h.goes, h.keeps⟩
  rw [haccepted]
  exact Accepted.Brings.complete (Asked.complete hsend hunread hsplits)

end WebUtility

end CatraLibraries
