/-
# Reading an HTTP header from a socket

`WebTools/src/WebUtility.cpp`, the header loop of `readHttpHeaderAndBody`.  The loop
peeks one block, looks for CR LF CR LF in that block alone with `strstr`, appends to
the header buffer what it takes for header bytes, and removes as many bytes from the
socket with a second read.

The socket is its unread bytes and an arbitrary schedule of how many bytes each
successive read returns: at least one, at most what was asked for and what is
there.  On an empty socket a read reports `endError`, the end of the stream or an
expired wait.
-/
import CatraLibraries.Tools.BufferAppend

namespace CatraLibraries

open Memory CString Substring

/-- The codes of `SocketErrors.h` that a read reports. -/
inductive SocketError
  | nothingToRead
  | readEofReached
  | readFailed
  deriving DecidableEq, Repr

/-- The codes the header loop can end with; the error of a read is passed on. -/
inductive HttpReadError
  | errNoError
  | headerTimeoutExpired
  | bufferSetBufferFailed
  | socketRead (errRead : SocketError)
  deriving DecidableEq, Repr

/-- A connected socket: what is still to be read, how the following reads split it, and
what a read reports once nothing is left. -/
structure Socket where
  unread : List UInt8
  sizes : Nat → Nat
  reads : Nat
  endError : SocketError

namespace Socket

/-- How many bytes the next read returns when `requested` are asked for. -/
def readLength (sock : Socket) (requested : Nat) : Nat :=
  max 1 (min (sock.sizes sock.reads) (min requested sock.unread.length))

/-- `SocketImpl::read` with `bOneShotRead`; the second flag is `bRemoveDataFromSocket`. -/
def read (sock : Socket) (requested : Nat) (bRemoveDataFromSocket : Bool) :
    Except SocketError (List UInt8 × Socket) :=
  if sock.unread = [] then .error sock.endError
  else
    let n := sock.readLength requested
    .ok (sock.unread.take n,
      { sock with
        unread := if bRemoveDataFromSocket then sock.unread.drop n else sock.unread
        reads := sock.reads + 1 })

end Socket

namespace WebUtility

/-- `WEBTOOLS_MAXHTTPHEADERBUFFERSIZE`. -/
def maxHttpHeaderBufferSize : Nat := 1024 * 2

/-- The terminator `"\r\n\r\n"`. -/
def crlfcrlf : List UInt8 := [13, 10, 13, 10]

/-- `pLocalHttpHeaderResponse` after a read: `SocketImpl::read` zeroes the array first. -/
def localResponse (block : List UInt8) : Cells UInt8 :=
  (block ++ List.replicate (maxHttpHeaderBufferSize - block.length) 0).map some

/-- The loop `while (!bIsHeaderFinished)`. -/
def readHeaderLoop :
    Nat → Buffer → Socket → Except Fault (HttpReadError × Buffer × Socket)
  | 0, _, _ => .error .outOfFuel
  | fuel + 1, pbHttpHeader, sock =>
    -- peek the first junk
    match sock.read maxHttpHeaderBufferSize false with
    | .error errRead =>
      .ok (if errRead = .nothingToRead then .headerTimeoutExpired else .socketRead errRead,
        pbHttpHeader, sock)
    | .ok (block, sock) => do
      match ← strstr (localResponse block) crlfcrlf with
      | some ulHTTPResponseHeaderLength =>
        let n := ulHTTPResponseHeaderLength + 4
        let (err, pbHttpHeader) ← pbHttpHeader.append (some (localResponse block)) n
        if err ≠ .errNoError then return (.bufferSetBufferFailed, pbHttpHeader, sock)
        else
          -- vacuum just the header from the socket
          match sock.read n true with
          | .error errRead => return (.socketRead errRead, pbHttpHeader, sock)
          | .ok (_, sock) => return (.errNoError, pbHttpHeader, sock)
      | none =>
        let (err, pbHttpHeader) ← pbHttpHeader.append (some (localResponse block)) block.length
        if err ≠ .errNoError then return (.bufferSetBufferFailed, pbHttpHeader, sock)
        else
          match sock.read block.length true with
          | .error errRead => return (.socketRead errRead, pbHttpHeader, sock)
          | .ok (_, sock) => readHeaderLoop fuel pbHttpHeader sock

/-- The header part of `readHttpHeaderAndBody`: the header buffer is emptied, then the
loop runs; every turn takes a byte from the socket. -/
def readHttpHeader (pbHttpHeader : Buffer) (sock : Socket) :
    Except Fault (HttpReadError × Buffer × Socket) := do
  let (err, pbHttpHeader) ← pbHttpHeader.setBuffer (some [some 0]) (-1)
  if err ≠ .errNoError then return (.bufferSetBufferFailed, pbHttpHeader, sock)
  else readHeaderLoop (sock.unread.length + 1) pbHttpHeader sock

end WebUtility

end CatraLibraries
