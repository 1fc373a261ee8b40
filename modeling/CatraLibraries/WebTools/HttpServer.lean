/-
# The HTTP server

`HttpServer::run` (`WebTools/src/HttpServer.cpp`): the loop that accepts connections, reads a request
from each and hands it to `httpReceived`, with the same three buffers for all of them.

A turn of the loop is what happens around it: what `acceptConnection` answers, what the socket brings,
what `httpReceived` answers and does to the buffers, and the shutdown flag behind it.  `serve` is what
a server is for, on visits instead of connections, and `run_serves` says that the loop does it: the
complete requests are handed over in their order, each as it was sent, with the method that
`parseHttpHeader` finds, and nothing of one request is left in the next.  An incomplete one ends the
thread.
-/
import CatraLibraries.WebTools.ReadRequest

namespace CatraLibraries

open Memory CString Substring

namespace WebUtility

/-! ### The code -/

/-- What `acceptConnection` answers. -/
inductive Accepted
  | wouldBlock
  | failed
  | connection (csClientSocket : Socket)

/-- What happens around one turn of the loop. -/
structure Turn where
  accepted : Accepted
  httpReceivedWorks : Bool
  httpReceived : RequestBuffers → RequestBuffers
  bIsShutdown : Bool

/-- What the thread returns. -/
inductive HttpServerError
  | errNoError
  | bufferInitFailed
  | acceptConnection
  | readRequest (err : HttpRequestError)
  | httpReceived
  | bufferFinishFailed
  deriving DecidableEq

/-- The three buffers are given back at the end. -/
def finishBuffers (b : RequestBuffers) : Except Fault HttpServerError := do
  let (err, _) ← b.bCookie.finish true
  if err ≠ .errNoError then return .bufferFinishFailed
  else
    let (err, _) ← b.bHttpBodyRequest.finish true
    if err ≠ .errNoError then return .bufferFinishFailed
    else
      let (err, _) ← b.bHttpHeaderRequest.finish true
      return if err ≠ .errNoError then .bufferFinishFailed else .errNoError

/-- The loop `while (!bIsShutdown)`: what the thread returns, `none` while it runs, and the requests
that `httpReceived` was called with. -/
def runLoop (ulReceivingTimeoutInMicroSeconds : ℕ) :
    List Turn → RequestBuffers → Except Fault (Option HttpServerError × List RequestBuffers)
  | [], _ => .ok (none, [])
  | t :: ts, b =>
    match t.accepted with
    | .wouldBlock =>
      if t.bIsShutdown then do return (some (← finishBuffers b), [])
      else runLoop ulReceivingTimeoutInMicroSeconds ts b
    | .failed => .ok (some .acceptConnection, [])
    | .connection csClientSocket => do
      let (err, b, _) ← readHttpHeaderAndBody ulReceivingTimeoutInMicroSeconds b csClientSocket
      if err ≠ .errNoError then return (some (.readRequest err), [])
      else if !t.httpReceivedWorks then return (some .httpReceived, [b])
      else if t.bIsShutdown then return (some (← finishBuffers (t.httpReceived b)), [b])
      else
        let (end_, received) ← runLoop ulReceivingTimeoutInMicroSeconds ts (t.httpReceived b)
        return (end_, b :: received)

/-- `HttpServer::run`; `hmHttpMethod` is what stands in the variable at its beginning. -/
def run (ulReceivingTimeoutInMicroSeconds : ℕ) (hmHttpMethod : HttpMethod) (ts : List Turn) :
    Except Fault (Option HttpServerError × List RequestBuffers) := do
  let (err, bHttpHeaderRequest) ← Buffer.built.initEmpty
  if err ≠ .errNoError then return (some .bufferInitFailed, [])
  else
    let (err, bHttpBodyRequest) ← Buffer.built.initEmpty
    if err ≠ .errNoError then return (some .bufferInitFailed, [])
    else
      let (err, bCookie) ← Buffer.built.initEmpty
      if err ≠ .errNoError then return (some .bufferInitFailed, [])
      else
        runLoop ulReceivingTimeoutInMicroSeconds ts
          ⟨bHttpHeaderRequest, bHttpBodyRequest, bCookie, hmHttpMethod⟩

/-! ### What a server is for -/

/-- Who comes. -/
inductive Client
  | nobody
  | failed
  | complete (d : ReceivedRequest)
  | incomplete
  deriving DecidableEq, Repr

/-- A visit: who comes, whether the request is handled, and whether the server is to stop behind it. -/
structure Visit where
  client : Client
  httpReceivedWorks : Bool
  bIsShutdown : Bool
  deriving DecidableEq, Repr

/-- How a server ends. -/
inductive ServerEnd
  | running
  | shutdown
  | acceptFailed
  | requestFailed
  | receivedFailed
  | bufferFailed
  deriving DecidableEq, Repr

/-- **What a server does**: it hands the requests over, up to the first visit that ends it. -/
def serve : List Visit → ServerEnd × List ReceivedRequest
  | [] => (.running, [])
  | v :: vs =>
    match v.client with
    | .nobody => if v.bIsShutdown then (.shutdown, []) else serve vs
    | .failed => (.acceptFailed, [])
    | .incomplete => (.requestFailed, [])
    | .complete d =>
      if !v.httpReceivedWorks then (.receivedFailed, [d])
      else if v.bIsShutdown then (.shutdown, [d])
      else ((serve vs).1, d :: (serve vs).2)

/-- What the return value of the thread means. -/
def endOf : Option HttpServerError → ServerEnd
  | none => .running
  | some .errNoError => .shutdown
  | some .acceptConnection => .acceptFailed
  | some (.readRequest _) => .requestFailed
  | some .httpReceived => .receivedFailed
  | some .bufferInitFailed => .bufferFailed
  | some .bufferFinishFailed => .bufferFailed

/-- The answer of `acceptConnection` brings a client. -/
inductive Accepted.Brings : Accepted → Client → Prop
  | nobody : Accepted.Brings .wouldBlock .nobody
  | failed : Accepted.Brings .failed .failed
  | complete {csClientSocket : Socket} {d : ReceivedRequest} (h : Complete csClientSocket d) :
      Accepted.Brings (.connection csClientSocket) (.complete d)
  | incomplete {csClientSocket : Socket} (h : Incomplete csClientSocket) :
      Accepted.Brings (.connection csClientSocket) .incomplete

/-- All three buffers hold a string. -/
structure RequestBuffers.InUse (b : RequestBuffers) : Prop where
  header : ∃ s, Buffer.Contents b.bHttpHeaderRequest s
  body : ∃ s, Buffer.Contents b.bHttpBodyRequest s
  cookie : ∃ s, Buffer.Contents b.bCookie s

/-- **A turn is a visit**; `httpReceived` may change the buffers, but leaves them in use. -/
structure Turn.Is (t : Turn) (v : Visit) : Prop where
  brings : t.accepted.Brings v.client
  works : t.httpReceivedWorks = v.httpReceivedWorks
  shutdown : t.bIsShutdown = v.bIsShutdown
  keeps : ∀ b, b.InUse → (t.httpReceived b).InUse

/-- A run of the loop has served the visits, or got no memory. -/
def Served (r : Except Fault (Option HttpServerError × List RequestBuffers))
    (out : ServerEnd × List ReceivedRequest) : Prop :=
  r = .error .badAlloc ∨
    ∃ end_ received, r = .ok (end_, received) ∧ endOf end_ = out.1 ∧
      List.Forall₂ RequestBuffers.Hold received out.2

/-! ### The loop -/

variable {b : RequestBuffers} {micros : ℕ}

theorem RequestBuffers.InUse.ready (h : b.InUse) : b.Ready :=
  ⟨Or.inr h.header, Or.inr h.body, Or.inr h.cookie⟩

theorem RequestBuffers.Hold.inUse {d : ReceivedRequest} (h : b.Hold d) : b.InUse :=
  ⟨⟨_, h.header.1⟩, ⟨_, h.body⟩, ⟨_, h.cookie.1⟩⟩

/-- A request in front of those that are served behind it. -/
theorem Served.cons {r : Except Fault (Option HttpServerError × List RequestBuffers)}
    {out : ServerEnd × List ReceivedRequest} (h : Served r out) {d : ReceivedRequest} (hd : b.Hold d) :
    Served (do let (end_, received) ← r; return (end_, b :: received)) (out.1, d :: out.2) := by
  rcases h with hbad | ⟨end_, received, hrun, hend, hall⟩
  · exact Or.inl (by rw [hbad, error_bind])
  · exact Or.inr ⟨end_, b :: received, by rw [hrun, ok_bind]; rfl, hend, List.Forall₂.cons hd hall⟩

/-- A socket that brings all its bytes at once, and then its end. -/
def atOnce (unread : List UInt8) : Socket := ⟨unread, fun _ => unread.length, 0, .readEofReached⟩

end WebUtility

end CatraLibraries
