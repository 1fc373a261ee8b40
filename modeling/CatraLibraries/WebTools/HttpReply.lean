/-
# The answer of the server

`HttpServer::httpReceived` (`WebTools/src/HttpServer.cpp`) as the class has it: the body of the request
is sent back behind a line of its own.  `HttpPostThread::run` (`WebTools/src/HttpPostThread.cpp`) reads
the answer with the function that the server has read the request with.

`echo` is the whole way: what the clients post is what they get, in whatever reads the requests and the
answers come, and whatever the buffers of either side have held before.
-/
import CatraLibraries.WebTools.HttpClients

namespace CatraLibraries

open Memory CString Substring

namespace WebUtility

/-! ### The code -/

namespace HttpServer

/-- The texts of `httpReceived`. -/
def received : CStr := quoted "This is what I received. URL: "

def responseHead : CStr :=
  quoted "HTTP/1.1 200 OK\r\nServer: HTTP Catra Libraries Server\r\nContent-Length: "

def responseEnd : CStr :=
  quoted "\r\nConnection: close\r\nContent-Type: text/plain; charset=UTF-8\r\n\r\n"

/-- `httpReceived`: the bytes that it writes to the connection. -/
def httpReceived (b : RequestBuffers) : Except Fault (ClientError × List UInt8) := do
  let (err, bResponseHeader) ← Buffer.built.initEmpty
  if err ≠ .errNoError then return (.bufferInitFailed, [])
  else
    let (err, bResponseBody) ← Buffer.built.initEmpty
    if err ≠ .errNoError then return (.bufferInitFailed, [])
    else
      let (err, bResponseBody) ← appendEach [received] bResponseBody
      if err ≠ .errNoError then return (err, [])
      else
        let (err, bResponseBody) ← bResponseBody.append (some b.bHttpBodyRequest.str) (-1)
        if err ≠ .errNoError then return (.bufferAppendFailed, [])
        else
          let (err, bResponseHeader) ← appendEach
            [responseHead, ErrMsg.printLd bResponseBody.length, responseEnd] bResponseHeader
          if err ≠ .errNoError then return (err, [])
          else
            let header ← cstr bResponseHeader.str
            let body ← cstr bResponseBody.str
            return (.errNoError, header ++ body)

end HttpServer

/-! ### The text of the answer -/

def serverName : FieldName :=
  ⟨⟨bytesOf "Server", by decide⟩, by decide, by decide, by decide, by decide⟩

def catraServer : LineText := ⟨quoted "HTTP Catra Libraries Server", by decide⟩

def plainText : LineText := ⟨quoted "text/plain; charset=UTF-8", by decide⟩

def replyFields (n : ℕ) : List HeaderField :=
  [field serverName catraServer, field contentLengthName (numberText n), field connectionName close,
    field contentTypeName plainText]

/-- The header block of an answer with a body of that length. -/
def replyBlock (n : ℕ) : HeaderBlock :=
  ⟨quoted "HTTP/1.1 200 OK", replyFields n, true, by decide, by decide⟩

theorem text_replyBlock (n : ℕ) :
    (replyBlock n).text =
      (quoted "HTTP/1.1 200 OK").bytes ++ 13 :: 10 :: (fieldLines (replyFields n) ++ [13, 10]) :=
  (replyBlock n).text_eq rfl

theorem replyBlock_nulFree (n : ℕ) : 0 ∉ (replyBlock n).text := by
  rw [text_replyBlock, List.mem_append, not_or]
  refine ⟨(quoted "HTTP/1.1 200 OK").nulFree, ?_⟩
  simpa using fieldLines_nulFree (replyFields n)

/-- An answer has no method. -/
theorem replyBlock_parsed (n : ℕ) (b : Buffer) (hm : HttpMethod)
    (hb : Buffer.Simulates b (some (replyBlock n).text)) :
    parseHttpHeader b hm none none = .error .badAlloc ∨ ∃ pbURL pbHeaders,
      parseHttpHeader b hm none none = .ok ⟨.errNoError, .undefined, pbURL, pbHeaders⟩ := by
  have hhttp : bytesOf "HTTP/" <+: (replyBlock n).text := by
    rw [text_replyBlock]
    exact (show bytesOf "HTTP/" <+: (quoted "HTTP/1.1 200 OK").bytes by decide).trans
      (List.prefix_append _ _)
  refine Or.inr ⟨none, none, ?_⟩
  unfold parseHttpHeader isRequest
  dsimp only
  rw [(str_holds hb).strncmp_eq (show 0 ∉ bytesOf "HTTP/" by decide), decide_eq_true hhttp]
  rfl

def replyHead (n : ℕ) : Head :=
  ⟨(replyBlock n).text, .undefined, replyBlock_nulFree n, replyBlock_parsed n⟩

/-- The body of the answer to a request. -/
def replyBody (body : List UInt8) : List UInt8 := HttpServer.received.bytes ++ body

/-- The pieces of the header are its text. -/
theorem replyBlock_text (n : ℕ) :
    [HttpServer.responseHead, ErrMsg.printLd n, HttpServer.responseEnd].flatMap (·.bytes) =
      (replyBlock n).text := by
  have hhead : HttpServer.responseHead.bytes = (quoted "HTTP/1.1 200 OK").bytes ++ 13 :: 10 ::
      (serverName.text.bytes ++ 58 :: 32 :: (catraServer.text.bytes ++
        13 :: 10 :: (contentLengthName.text.bytes ++ [58, 32]))) := by decide
  have hend : HttpServer.responseEnd.bytes = 13 :: 10 :: (connectionName.text.bytes ++
      58 :: 32 :: (close.text.bytes ++ 13 :: 10 :: (contentTypeName.text.bytes ++
        58 :: 32 :: (plainText.text.bytes ++ [13, 10, 13, 10])))) := by decide
  rw [text_replyBlock]
  simp only [List.flatMap_cons, List.flatMap_nil, hhead, hend]
  simp [fieldLines, replyFields, text_field, numberText]

theorem lengthIs_reply (n : ℕ) : LengthIs (replyBlock n) n := by
  refine ⟨field contentLengthName (numberText n), _, ?_, rfl, ClientRequest.decimal_number n⟩
  unfold replyBlock replyFields
  simp +decide [spelled_field]

/-! ### Sent and read -/

/-- **`httpReceived` sends the body back.** -/
theorem httpReceived_spec {b : RequestBuffers} {d : ReceivedRequest} (h : b.Hold d)
    (hfree : 0 ∉ d.body) :
    HttpServer.httpReceived b = .error .badAlloc ∨
      HttpServer.httpReceived b = .ok (.errNoError,
        (replyBlock (replyBody d.body).length).text ++ replyBody d.body) ∧
      0 ∉ replyBody d.body ∧ (replyBody d.body).length < 2 ^ 63 := by
  have hbody : Holds b.bHttpBodyRequest.str d.body := str_holds ⟨h.body, hfree⟩
  unfold HttpServer.httpReceived
  rcases Buffer.initEmpty_spec Buffer.built_idle with hbad | ⟨e, he, hc⟩
  · exact Or.inl (by rw [hbad, error_bind])
  rw [he, ok_bind]
  dsimp only
  rw [if_neg (fun h => h rfl), ok_bind]
  dsimp only
  rw [if_neg (fun h => h rfl)]
  have hempty : Buffer.Simulates e (some []) := ⟨hc, List.not_mem_nil⟩
  rcases appendEach_spec [HttpServer.received] hempty with hbad | ⟨b₁, hb₁, h₁⟩
  · exact Or.inl (by rw [hbad, error_bind])
  rw [hb₁, ok_bind]
  dsimp only
  rw [if_neg (fun h => h rfl)]
  rcases Buffer.append_simulates h₁.1 h₁.2 hbody with hbad | ⟨b₂, hb₂, h₂⟩
  · exact Or.inl (by rw [hbad, error_bind])
  have hsim : Buffer.Simulates b₂ (some (replyBody d.body)) := by simpa [replyBody] using h₂
  have hlength : b₂.length = (replyBody d.body).length := by
    rw [hsim.1.inUse.length_eq_chars, hsim.1.chars]
  rw [hb₂, ok_bind]
  dsimp only
  rw [if_neg (fun h => h rfl), hlength]
  rcases appendEach_spec [HttpServer.responseHead, ErrMsg.printLd (replyBody d.body).length,
    HttpServer.responseEnd] hempty with hbad | ⟨b₃, hb₃, h₃⟩
  · exact Or.inl (by rw [hbad, error_bind])
  rw [replyBlock_text, List.nil_append] at h₃
  rw [hb₃, ok_bind]
  dsimp only
  rw [if_neg (fun h => h rfl), (str_holds h₃).cstr_eq, ok_bind, (str_holds hsim).cstr_eq, ok_bind]
  have hlt := hsim.1.length_lt
  exact Or.inr ⟨rfl, hsim.2, by omega⟩

/-- **The thread that posts** gets the answer as the body, in whatever reads it comes. -/
def Answered (micros : ℕ) (b : RequestBuffers) (body : List UInt8) : Prop :=
  HttpServer.httpReceived b = .error .badAlloc ∨
    ∃ bytes, HttpServer.httpReceived b = .ok (.errNoError, bytes) ∧
      ∀ (client : RequestBuffers) (sock : Socket) (rest : List UInt8), client.Ready →
        sock.unread = bytes ++ rest → (∃ blocks, SplitsWell sock blocks) →
        readHttpHeaderAndBody micros client sock = .error .badAlloc ∨
          ∃ client' sock',
            readHttpHeaderAndBody micros client sock = .ok (.errNoError, client', sock') ∧
            Buffer.Contents client'.bHttpBodyRequest (replyBody body)

theorem answered {micros : ℕ} (hmicros : micros < 1000000) {b : RequestBuffers} {d : ReceivedRequest}
    (h : b.Hold d) (hfree : 0 ∉ d.body) : Answered micros b d.body := by
  rcases httpReceived_spec h hfree with hbad | ⟨hreply, hfree', hlong⟩
  · exact Or.inl hbad
  refine Or.inr ⟨_, hreply, fun client sock rest hready hunread hsplits => ?_⟩
  have hheader : HeaderComes sock (replyHead (replyBody d.body).length)
      (replyBlock (replyBody d.body).length) (replyBody d.body ++ rest) :=
    ⟨rfl, rfl, hunread.trans (List.append_assoc _ _ _), hsplits⟩
  have htake : (replyBody d.body ++ rest).take (replyBody d.body).length = replyBody d.body :=
    List.take_left
  have hcomplete := Complete.body hheader (fun h => by cases h) (lengthIs_reply _) hlong
    (by rw [List.length_append]; omega) (by rw [htake]; exact hfree')
  rcases readHttpHeaderAndBody_complete hready hmicros hcomplete with
    hbad | ⟨client', sock', hread, hhold⟩
  · exact Or.inl hbad
  · exact Or.inr ⟨client', sock', hread, htake ▸ hhold.body⟩

end WebUtility

end CatraLibraries
