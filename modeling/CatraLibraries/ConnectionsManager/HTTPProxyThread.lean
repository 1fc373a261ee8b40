/-
# The proxy thread

`ConnectionsManager/src/HTTPProxyThread.cpp` with the parts of `HttpGetThread::run` and of
`WebUtility::readHttpHeaderAndBody` that decide what it is called with.  The thread asks a web
server, and passes each piece of the body it reads to the client at once: `chunkRead` writes a
header of its own in front of the first piece, and marks the response as finished when the
bytes written so far have reached the announced length, which is -1 where none was announced.
When the exchange is over, `closingHttpGet` reports an error that came before all that.

What the web server and the network do is an `Exchange`: the error, if any, of each part, the
announced length, and a socket with the bytes of the body.
-/
import CatraLibraries.ConnectionsManager.Session
import CatraLibraries.Lib.Stdio
import CatraLibraries.Tools.BufferRun
import CatraLibraries.WebTools.WebUtility

namespace CatraLibraries

open Memory CString Substring

/-- The codes that `chunkRead` and `closingHttpGet` return. -/
inductive ProxyError
  | errNoError
  | toolsBufferInitFailed
  | toolsBufferSetBufferFailed
  | toolsBufferAppendFailed
  | sessionWriteResponseFailed
  deriving DecidableEq, Repr

/-- The codes that an exchange with the web server ends with; `failed` is any other code of a
library below. -/
inductive HttpGetError
  | errNoError
  | readEofReached
  | bodyTimeoutExpired
  | readFailed
  | chunkReadFailed
  | failed (code : Nat)
  deriving DecidableEq, Repr

/-- The members of the class that the modelled functions use. -/
structure HTTPProxyThread where
  psSession : ClientSession
  tUTCStartConnectionTime : Nat
  ulHeaderDataSizeSentToClient : Nat
  ullBodyDataSizeSentToClient : Nat
  bHttpGetHeaderResponse : Buffer
  bHttpGetBodyResponse : Buffer

/-- What happens to the exchange from outside.  The header buffer is the one that reading the
header has left, in order whatever the header was. -/
structure Exchange where
  /-- The error of a step before the reading: connecting, the options, sending the request. -/
  beforeReading : HttpGetError
  /-- The error of reading and parsing the header. -/
  header : HttpGetError
  headerBuffer : { b : Buffer // b.Ready }
  /-- Whether the header starts like a GET request, so that no body is read. -/
  isGetRequest : Bool
  contentLength : Option UInt64
  server : Socket
  /-- The error of a step after the reading: taking the time, closing the socket. -/
  afterReading : HttpGetError

/-- A buffer goes through a list of calls; the first that fails gives the code beside it. -/
def Buffer.perform : List (BufferOp × ProxyError) → Buffer → Except Fault (ProxyError × Buffer)
  | [], b => .ok (.errNoError, b)
  | (op, code) :: ops, b => do
    let (err, b) ← op.exec b
    if err ≠ .errNoError then return (code, b) else perform ops b

namespace HTTPProxyThread

/-- The first lines of every header the thread writes. -/
def headerStart : CStr :=
  ⟨bytesOf "HTTP/1.1 200 OK\r\nContent-Type: text/xml; charset=utf-8\r\nContent-Length: ", by decide⟩

def headerEnd : CStr := ⟨bytesOf "\r\n\r\n", by decide⟩

def failureStart : CStr :=
  ⟨bytesOf "<?xml version=\"1.0\" encoding=\"utf-8\"?>\n<Status><![CDATA[FAILURE: ", by decide⟩

def failureEnd : CStr := ⟨bytesOf "]]></Status>", by decide⟩

/-- A number as `append (long long)` and `append (unsigned long)` print it. -/
def number (n : Int) : CStr :=
  ⟨(Stdio.printLld n).map fun c => UInt8.ofNat c.toNat, Stdio.zero_notMem_printLld n⟩

/-- The end of `chunkRead` and of `closingHttpGet`: the response is written. -/
def writeResponse (pbHeader : Option Buffer) (bIsResponseFinished : Bool) (th : HTTPProxyThread) :
    Except Fault (ProxyError × HTTPProxyThread) := do
  let (errWrite, psSession, pbHeader', pbBody') ← th.psSession.writeResponse
    th.tUTCStartConnectionTime pbHeader (some th.bHttpGetBodyResponse) bIsResponseFinished
  let th := { th with
    psSession := psSession
    bHttpGetHeaderResponse := pbHeader'.getD th.bHttpGetHeaderResponse
    bHttpGetBodyResponse := pbBody'.getD th.bHttpGetBodyResponse }
  return (if errWrite ≠ .errNoError then .sessionWriteResponseFailed else .errNoError, th)

/-- Whether the response is finished: the total is compared as an `unsigned long long`. -/
def isResponseFinished (ullBodyDataSizeSentToClient : Nat) (llTotalContentLength : Int64) : Bool :=
  ullBodyDataSizeSentToClient ≥ llTotalContentLength.toUInt64.toNat

/-- `chunkRead (ulChunkReadIndex, llTotalContentLength, …, pucBuffer, ulBufferDataSize)`. -/
def chunkRead (ulChunkReadIndex : Nat) (llTotalContentLength : Int64) (pucBuffer : List UInt8)
    (th : HTTPProxyThread) : Except Fault (ProxyError × HTTPProxyThread) :=
  if ulChunkReadIndex = 0 then do
    let (err, header) ← th.bHttpGetHeaderResponse.perform
      [(.setBuffer headerStart, .toolsBufferInitFailed),
        (.append (number llTotalContentLength.toInt), .toolsBufferAppendFailed)]
    let th := { th with bHttpGetHeaderResponse := header }
    if err ≠ .errNoError then return (err, th)
    else
      let th := { th with ulHeaderDataSizeSentToClient := header.length }
      let (err, header) ← header.perform [(.append headerEnd, .toolsBufferAppendFailed)]
      let th := { th with bHttpGetHeaderResponse := header }
      if err ≠ .errNoError then return (err, th)
      else
        let (err, body) ← th.bHttpGetBodyResponse.setBuffer (some (pucBuffer.map some))
          pucBuffer.length
        let th := { th with bHttpGetBodyResponse := body }
        if err ≠ .errNoError then return (.toolsBufferAppendFailed, th)
        else
          let th := { th with ullBodyDataSizeSentToClient := pucBuffer.length % 2 ^ 64 }
          th.writeResponse (some th.bHttpGetHeaderResponse)
            (isResponseFinished th.ullBodyDataSizeSentToClient llTotalContentLength)
  else do
    let (err, body) ← th.bHttpGetBodyResponse.setBuffer (some (pucBuffer.map some))
      pucBuffer.length
    let th := { th with bHttpGetBodyResponse := body }
    if err ≠ .errNoError then return (.toolsBufferAppendFailed, th)
    else
      let th := { th with
        ullBodyDataSizeSentToClient :=
          (th.ullBodyDataSizeSentToClient + pucBuffer.length) % 2 ^ 64 }
      th.writeResponse none
        (isResponseFinished th.ullBodyDataSizeSentToClient llTotalContentLength)

/-- `closingHttpGet (perr)`; the second argument is the text of an error. -/
def closingHttpGet (perr : HttpGetError) (text : HttpGetError → CStr) (th : HTTPProxyThread) :
    Except Fault (ProxyError × HTTPProxyThread) :=
  if perr ≠ .errNoError ∧ perr ≠ .readEofReached ∧ th.ulHeaderDataSizeSentToClient = 0 then do
    let (err, header) ← th.bHttpGetHeaderResponse.perform
      [(.setBuffer headerStart, .toolsBufferSetBufferFailed)]
    let th := { th with bHttpGetHeaderResponse := header }
    if err ≠ .errNoError then return (err, th)
    else
      let (err, body) ← th.bHttpGetBodyResponse.perform
        [(.setBuffer failureStart, .toolsBufferAppendFailed),
          (.append (text perr), .toolsBufferAppendFailed),
          (.append failureEnd, .toolsBufferAppendFailed)]
      let th := { th with bHttpGetBodyResponse := body }
      if err ≠ .errNoError then return (err, th)
      else
        let (err, header) ← header.perform [(.append (number body.length), .toolsBufferAppendFailed)]
        let th := { th with bHttpGetHeaderResponse := header }
        if err ≠ .errNoError then return (err, th)
        else
          let th := { th with
            ulHeaderDataSizeSentToClient := header.length
            ullBodyDataSizeSentToClient := body.length }
          let (err, header) ← header.perform [(.append headerEnd, .toolsBufferAppendFailed)]
          let th := { th with bHttpGetHeaderResponse := header }
          if err ≠ .errNoError then return (err, th)
          else th.writeResponse (some th.bHttpGetHeaderResponse) true
  else .ok (.errNoError, th)

/-! ### The exchange -/

/-- `WEBTOOLS_MAXHTTPBODYBUFFERSIZE`. -/
def maxHttpBodyBufferSize : Nat := 1024 * 4

/-- `ulBodyBufferSize`. -/
def bodyBufferSize (contentLength : Option UInt64) : Nat :=
  match contentLength with
  | none => maxHttpBodyBufferSize
  | some n => if n.toNat ≤ maxHttpBodyBufferSize then n.toNat + 1 else maxHttpBodyBufferSize

/-- How many bytes the next turn asks for; `none` when the body is finished. -/
def bytesToRead (contentLength : Option UInt64) (ullCurrentBodyLength : Nat) : Option Nat :=
  match contentLength with
  | none => some (bodyBufferSize none)
  | some n =>
    if ullCurrentBodyLength < n.toNat then
      some (min (bodyBufferSize (some n)) (n.toNat - ullCurrentBodyLength))
    else none

/-- The total that `chunkRead` is told. -/
def totalContentLength (contentLength : Option UInt64) : Int64 :=
  match contentLength with
  | none => -1
  | some n => n.toInt64

/-- The code of a failed read. -/
def readError : SocketError → HttpGetError
  | .nothingToRead => .bodyTimeoutExpired
  | .readEofReached => .readEofReached
  | .readFailed => .readFailed

/-- The loop `while (!bIsBodyFinished)`; every turn takes a byte from the socket. -/
def bodyLoop (contentLength : Option UInt64) :
    Nat → Nat → Nat → Socket → HTTPProxyThread → Except Fault (HttpGetError × HTTPProxyThread)
  | 0, _, _, _, _ => .error .outOfFuel
  | fuel + 1, ullCurrentBodyLength, ulChunkReadIndex, sock, th =>
    match bytesToRead contentLength ullCurrentBodyLength with
    | none => .ok (.errNoError, th)
    | some ulBufferLength =>
      match sock.read ulBufferLength true with
      | .error errRead => .ok (readError errRead, th)
      | .ok (block, sock) => do
        let (err, th) ← th.chunkRead ulChunkReadIndex (totalContentLength contentLength) block
        if err ≠ .errNoError then return (.chunkReadFailed, th)
        else
          bodyLoop contentLength fuel ((ullCurrentBodyLength + block.length) % 2 ^ 64)
            (ulChunkReadIndex + 1) sock th

/-- `readHttpHeaderAndBody`, from the outcome of the header on. -/
def readHttpHeaderAndBody (x : Exchange) (th : HTTPProxyThread) :
    Except Fault (HttpGetError × HTTPProxyThread) :=
  let th := { th with bHttpGetHeaderResponse := x.headerBuffer.1 }
  if x.header ≠ .errNoError then .ok (x.header, th)
  else if x.isGetRequest then .ok (.errNoError, th)
  else bodyLoop x.contentLength (x.server.unread.length + 2) 0 0 x.server th

/-- `HttpGetThread::run`, with the virtual functions of the proxy thread. -/
def run (text : HttpGetError → CStr) (x : Exchange) (th : HTTPProxyThread) :
    Except Fault (HttpGetError × HTTPProxyThread) :=
  if x.beforeReading ≠ .errNoError then do
    let (_, th) ← th.closingHttpGet x.beforeReading text
    return (x.beforeReading, th)
  else do
    let (erThreadReturn, th) ← th.readHttpHeaderAndBody x
    if erThreadReturn ≠ .errNoError then
      let (_, th) ← th.closingHttpGet erThreadReturn text
      return (erThreadReturn, th)
    else
      let (_, th) ← th.closingHttpGet x.afterReading text
      return (x.afterReading, th)

end HTTPProxyThread

end CatraLibraries
