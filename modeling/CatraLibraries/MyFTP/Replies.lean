/-
# Commands and replies

A session of `MyFTP`: `init` on a connection, and then calls of `put`.  A server answers each command
line with a reply, and a `STOR` that it has accepted once more when the data connection is closed.

The connection carries all bytes in order; what each `recvfrom` gives of them, and which of its own
steps fail, are inputs.  Of `init` the exchange is modelled from the connection on.
-/
import Mathlib.Data.List.Forall2
import CatraLibraries.Lib.Transition
import CatraLibraries.MyFTP.Transfer
import CatraLibraries.Socket.ReadLine

namespace CatraLibraries

namespace MyFTP

open Memory CString

/-! ### The server -/

/-- The code of a reply. -/
structure Code where
  first : UInt8
  second : UInt8
  third : UInt8
  digits : ∀ c ∈ [first, second, third], 48 ≤ c ∧ c ≤ 57

def Code.bytes (code : Code) : List UInt8 := [code.first, code.second, code.third]

/-- The text in a line of a reply. -/
structure Text where
  bytes : List UInt8
  nulFree : 0 ∉ bytes
  noLF : 10 ∉ bytes

def Text.line (text : Text) : SocketImpl.Line := ⟨text.bytes, .crlf, text.nulFree, text.noLF, nofun⟩

/-- A line with the code: behind it is a space in the last line of a reply, and a hyphen in the first
of several. -/
def Code.text (code : Code) (isLast : Bool) (text : Text) : Text where
  bytes := code.bytes ++ (if isLast then 32 else 45) :: text.bytes
  nulFree := by
    have hdigits := code.digits
    intro h
    rcases List.mem_append.mp h with h | h
    · exact absurd (hdigits 0 h).1 (by decide)
    · rcases List.mem_cons.mp h with h | h
      · cases isLast <;> exact absurd h (by decide)
      · exact text.nulFree h
  noLF := by
    have hdigits := code.digits
    intro h
    rcases List.mem_append.mp h with h | h
    · exact absurd (hdigits 10 h).1 (by decide)
    · rcases List.mem_cons.mp h with h | h
      · cases isLast <;> exact absurd h (by decide)
      · exact text.noLF h

/-- A reply: one line, or several, of which only the last begins with the code and a space. -/
inductive Reply
  | single (code : Code) (text : Text)
  | multi (code : Code) (first : Text) (between : List Text) (last : Text)
    (inner : ∀ text ∈ between, ¬code.bytes ++ [32] <+: text.bytes)

def Reply.code : Reply → Code
  | .single code _ => code
  | .multi code _ _ _ _ => code

def Reply.lines : Reply → List SocketImpl.Line
  | .single code text => [(code.text true text).line]
  | .multi code first between last _ =>
    (code.text false first).line :: between.map Text.line ++ [(code.text true last).line]

def Reply.bytes (reply : Reply) : List UInt8 := reply.lines.flatMap SocketImpl.Line.bytes

/-- What a reply is to: the connection, the last of some commands, or the end of the data that the
last of some commands has announced. -/
inductive Asked
  | greeting
  | command (commands : List (List UInt8))
  | final (commands : List (List UInt8))
  deriving DecidableEq

/-- A server, and the connection from it: its replies, and how much the two `recvfrom`s with which
each of them is read give. -/
structure Server where
  reply : Asked → Reply
  sizes : Asked → ℕ × ℕ
  short : ∀ asked, ∀ line ∈ (reply asked).lines, line.text.length < 256

/-- Where a session is; after a fault nothing is known of it. -/
inductive SessionPhase
  | connected
  | loggedIn
  | finished
  | undefined
  deriving DecidableEq

/-- The state of a session: the connection as `MyFTP` sees it, with `_pLastFTPResponse`; the commands
that the server has got, and the `STOR` it receives data for.  `said` are its replies, and `evaluated`
are those that `MyFTP` has looked at, with what it took for them. -/
structure Session where
  phase : SessionPhase
  control : SocketImpl.Reader
  ulReceivingAdditionalTimeoutInMicroSeconds : ℕ
  commands : List (List UInt8)
  receiving : Option (List (List UInt8))
  said : List Asked
  evaluated : List (Asked × Cells UInt8)

/-- The server replies. -/
def Session.replies (server : Server) (asked : Asked) (s : Session) : Session :=
  { s with
    control := ⟨s.control.buffer, s.control.unread ++ (server.reply asked).bytes⟩
    said := s.said ++ [asked] }

/-- A connection that was accepted. -/
def Session.start (server : Server) (pLastFTPResponse : Cells UInt8) : Session :=
  Session.replies server .greeting ⟨.connected, ⟨pLastFTPResponse, []⟩, 0, [], none, [], []⟩

/-- The first character of a reply. -/
def Server.digit (server : Server) (asked : Asked) : UInt8 := (server.reply asked).code.first

/-- The server gets a line. -/
def Session.receives (server : Server) (s : Session) (command : List UInt8) : Session :=
  let commands := s.commands ++ [command]
  let s' := Session.replies server (.command commands) { s with commands := commands }
  if bytesOf "STOR " <+: command ∧ server.digit (.command commands) = 49 then
    { s' with receiving := some commands }
  else s'

/-- The lines of what was written, behind the beginning of the first one. -/
def commandLines : List UInt8 → List UInt8 → List (List UInt8)
  | line, c :: d :: rest =>
    if c = 13 ∧ d = 10 then line :: commandLines [] rest else commandLines (line ++ [c]) (d :: rest)
  | _, _ => []

/-- The data connection is closed. -/
def Session.closes (server : Server) (s : Session) : Session :=
  match s.receiving with
  | none => s
  | some commands => Session.replies server (.final commands) { s with receiving := none }

/-! ### The client -/

/-- What makes the transfer fail. -/
inductive TransferError
  | fileReaderInit
  | readBytes
  | write
  | progress
  | fileReaderFinish
  deriving DecidableEq

/-- The errors of `init` and `put`. -/
inductive FTPError
  | activationWrong
  | readLine (errRead : SocketImpl.ReadError)
  | unexpectedFTPResponse
  | ftpCommandTooLong
  | clientSocketInit
  | getSocketImpl
  | transfer (err : TransferError)
  | clientSocketFinish
  deriving DecidableEq

/-- What a part of a call comes to. -/
abbrev Outcome := Except Fault (Except FTPError Unit × Session)

/-- What follows where there is no error. -/
def Outcome.andThen (outcome : Outcome) (next : Session → Outcome) : Outcome :=
  outcome >>= fun r =>
  match r.1 with
  | .error err => .ok (.error err, r.2)
  | .ok () => next r.2

/-- What is done to the session after an error. -/
def Outcome.onError (outcome : Outcome) (cleanup : Session → Session) : Outcome :=
  outcome >>= fun r =>
  match r.1 with
  | .error err => .ok (.error err, cleanup r.2)
  | .ok () => .ok r

/-- `FTP_MYFTP_MAXFTPUSERLENGTH`, which is `FTP_MYFTP_MAXFTPPWDLENGTH`. -/
def maxFTPUserLength : ℕ := 64 + 1

/-- `FTP_MYFTP_MAXFTPCOMMANDLENGTH`. -/
def maxFTPCommandLength : ℕ := 256 + 1

/-- `FTP_MYFTP_MAXFTPRESPONSELENGTH`. -/
def maxFTPResponseLength : UInt64 := 256 + 1

def readFTPResponse (server : Server) (asked : Asked) (s : Session) : Outcome :=
  SocketImpl.readLine maxFTPResponseLength s.ulReceivingAdditionalTimeoutInMicroSeconds
    (server.sizes asked) s.control >>= fun r =>
  match r.1 with
  | .error errRead => .ok (.error (.readLine errRead), { s with control := r.2 })
  | .ok _ => .ok (.ok (), { s with control := r.2 })

/-- `readFTPResponse`, and the look at the first character of what it read. -/
def expect (server : Server) (asked : Asked) (digit : UInt8) (s : Session) : Outcome :=
  (readFTPResponse server asked s).andThen fun s =>
    strncmp s.control.buffer [digit] >>= fun same =>
    let s := { s with evaluated := s.evaluated ++ [(asked, s.control.buffer)] }
    .ok (if same then .ok () else .error .unexpectedFTPResponse, s)

/-- `writeFTPCommand` of the command with its CR LF. -/
def writeFTPCommand (server : Server) (command : List UInt8) (s : Session) : Session :=
  (commandLines [] (command ++ [13, 10])).foldl (Session.receives server) s

/-- A command and the reply to it. -/
def ask (server : Server) (command : List UInt8) (digit : UInt8) (s : Session) : Outcome :=
  expect server (.command (s.commands ++ [command])) digit (writeFTPCommand server command s)

/-- A command that may be too long. -/
def askWith (server : Server) (command : List UInt8) (digit : UInt8) (s : Session) : Outcome :=
  if maxFTPCommandLength ≤ command.length + 2 + 1 then .ok (.error .ftpCommandTooLong, s)
  else ask server command digit s

/-- The arguments of `init` that the exchange depends on. -/
structure Login where
  pFTPUser : CStr
  pFTPPwd : CStr
  fFTPMode : FTPMode
  ulReceivingAdditionalTimeoutInMicroSeconds : ℕ

def Login.user (login : Login) : List UInt8 := bytesOf "USER " ++ login.pFTPUser.bytes

def Login.pass (login : Login) : List UInt8 := bytesOf "PASS " ++ login.pFTPPwd.bytes

def Login.type (login : Login) : List UInt8 :=
  bytesOf (if login.fFTPMode = .ascii then "TYPE A" else "TYPE I")

/-- The check of the arguments. -/
def Login.TooLong (login : Login) : Prop :=
  maxFTPUserLength ≤ login.pFTPUser.bytes.length ∨ maxFTPUserLength ≤ login.pFTPPwd.bytes.length

instance (login : Login) : Decidable login.TooLong :=
  inferInstanceAs (Decidable (_ ∨ _))

/-- `init`; the connection is closed where it fails. -/
def init (server : Server) (login : Login) (s : Session) : Outcome :=
  if login.TooLong then .ok (.error .activationWrong, { s with phase := .finished })
  else
    let s := { s with
      ulReceivingAdditionalTimeoutInMicroSeconds := login.ulReceivingAdditionalTimeoutInMicroSeconds }
    (((((expect server .greeting 50 s).andThen
      (askWith server login.user 51)).andThen
      (askWith server login.pass 50)).andThen
      (ask server login.type 50)).andThen
      fun s => .ok (.ok (), { s with phase := .loggedIn })).onError
      fun s => { s with phase := .finished }

/-- The arguments of `put`, and which of the local steps of the call succeed: `init` of the data
socket, `getSocketImpl`, the transfer and `finish`. -/
structure Put where
  pRemotePathName : CStr
  socketInit : Bool
  getSocketImpl : Bool
  transfer : Option TransferError
  finish : Bool

def Put.stor (put : Put) : List UInt8 := bytesOf "STOR " ++ put.pRemotePathName.bytes

def getDataFTPClientSocket (server : Server) (call : Put) (s : Session) : Outcome :=
  (ask server (bytesOf "PASV") 50 s).andThen fun s =>
    strchr s.control.buffer 40 >>= fun pConnectionInfo =>
    match pConnectionInfo with
    | none => .ok (.error .unexpectedFTPResponse, s)
    | some _ => .ok (if call.socketInit then .ok () else .error .clientSocketInit, s)

/-- `STOR`, and the transfer. -/
def store (server : Server) (call : Put) (s : Session) : Outcome :=
  if call.getSocketImpl then
    (askWith server call.stor 49 s).andThen fun s =>
      .ok (match call.transfer with
        | some err => .error (.transfer err)
        | none => .ok (), s)
  else .ok (.error .getSocketImpl, s)

/-- Either `put`.  A failure closes the data connection. -/
def put (server : Server) (call : Put) (s : Session) : Outcome :=
  (getDataFTPClientSocket server call s).andThen fun s =>
    ((store server call s).onError (Session.closes server)).andThen fun s' =>
      let s' := Session.closes server s'
      if call.finish then expect server (.final (s.commands ++ [call.stor])) 50 s'
      else .ok (.error .clientSocketFinish, s')

/-! ### Sessions -/

inductive Call
  | init (login : Login)
  | put (call : Put)

/-- The session after a call. -/
def Outcome.session (outcome : Outcome) (s : Session) : Session :=
  match outcome with
  | .error _ => { s with phase := .undefined }
  | .ok r => r.2

/-- A call of a session: `init`, and then `put`. -/
def step (server : Server) (s : Session) (call : Call) : Option Session :=
  match s.phase, call with
  | .connected, .init login => some ((init server login s).session s)
  | .loggedIn, .put call => some ((put server call s).session s)
  | _, _ => none

/-! ### What a session should do -/

/-- What was taken for a reply is the reply, which is one line. -/
def Complete (server : Server) (evaluated : Asked × Cells UInt8) (asked : Asked) : Prop :=
  evaluated.1 = asked ∧
    ∃ line, (server.reply asked).lines = [line] ∧ Holds evaluated.2 line.text

/-- **What a call should do.**  The replies that were evaluated are the first ones that the server has
given, each complete and for its own command, and a `put` returns success only when the final reply to
its own `STOR` begins with 2. -/
structure Paired (server : Server) (s : Session) (call : Call) (s' : Session) : Prop where
  evaluated : ∃ said rest, s'.said = said ++ rest ∧
    List.Forall₂ (Complete server) s'.evaluated said
  stored : ∀ p, call = .put p → put server p s = .ok (.ok (), s') →
    .final (s.commands ++ [bytesOf "PASV", p.stor]) ∈ s'.said ∧
      server.digit (.final (s.commands ++ [bytesOf "PASV", p.stor])) = 50
  defined : s'.phase ≠ .undefined

/-- A reply that is one line, which fits in `_pLastFTPResponse` and comes in one piece. -/
def Whole (server : Server) (asked : Asked) : Prop :=
  ∃ line, (server.reply asked).lines = [line] ∧ line.bytes.length ≤ 256 ∧
    line.bytes.length ≤ (server.sizes asked).1 + 1 ∧ line.bytes.length ≤ (server.sizes asked).2 + 1

/-- The reply comes whole, and so does what follows it when it begins with the digit. -/
def Comes (server : Server) (asked : Asked) (digit : UInt8) (next : Prop) : Prop :=
  Whole server asked ∧ (server.digit asked = digit → next)

/-- The same for the reply to a command that is one line. -/
def Answered (server : Server) (commands : List (List UInt8)) (command : List UInt8) (digit : UInt8)
    (next : Prop) : Prop :=
  ¬[13, 10] <:+: command ∧ Comes server (.command (commands ++ [command])) digit next

def Login.Answered (server : Server) (login : Login) : Prop :=
  ¬login.TooLong → Comes server .greeting 50 (
    MyFTP.Answered server [] login.user 51 (
      MyFTP.Answered server [login.user] login.pass 50 (
        MyFTP.Answered server [login.user, login.pass] login.type 50 True)))

/-- The reply to `PASV` tells an address. -/
def TellsAddress (server : Server) (asked : Asked) : Prop :=
  ∃ line ∈ (server.reply asked).lines, 40 ∈ line.text

def Put.Answered (server : Server) (commands : List (List UInt8)) (call : Put) : Prop :=
  MyFTP.Answered server commands (bytesOf "PASV") 50 (
    TellsAddress server (.command (commands ++ [bytesOf "PASV"])) → call.socketInit →
    call.getSocketImpl → call.stor.length + 2 + 1 < maxFTPCommandLength →
    MyFTP.Answered server (commands ++ [bytesOf "PASV"]) call.stor 49 (
      call.transfer = none → call.finish →
      Comes server (.final (commands ++ [bytesOf "PASV", call.stor])) 50 True))

/-- **The condition of a call.**  No reply is left from the calls before, and each reply that the call
waits for is one line that comes whole. -/
def Meets (server : Server) (s : Session) : Call → Prop
  | .init login => login.Answered server
  | .put call => s.control.unread = [] ∧ call.Answered server s.commands

/-! ### Outcomes -/

/-- There is no fault, and the session is as one or the other says. -/
def Outcome.Gives (outcome : Outcome) (returns fails : Session → Prop) : Prop :=
  ∃ r, outcome = .ok r ∧
    match r.1 with
    | .ok () => returns r.2
    | .error _ => fails r.2

variable {outcome : Outcome} {next : Session → Outcome} {cleanup : Session → Session}
variable {P Q E F : Session → Prop} {s s' : Session}

theorem Outcome.Gives.andThen (h : outcome.Gives P E) (hnext : ∀ s, P s → (next s).Gives Q E) :
    (outcome.andThen next).Gives Q E := by
  obtain ⟨⟨result, s⟩, rfl, hr⟩ := h
  cases result with
  | error err => exact ⟨_, rfl, hr⟩
  | ok u => exact hnext s hr

theorem Outcome.Gives.onError (h : outcome.Gives P E) (hcleanup : ∀ s, E s → F (cleanup s)) :
    (outcome.onError cleanup).Gives P F := by
  obtain ⟨⟨result, s⟩, rfl, hr⟩ := h
  cases result with
  | error err => exact ⟨_, rfl, hcleanup s hr⟩
  | ok u => exact ⟨_, rfl, hr⟩

theorem Outcome.Gives.mono (h : outcome.Gives P E) (hP : ∀ s, P s → Q s) (hE : ∀ s, E s → F s) :
    outcome.Gives Q F := by
  obtain ⟨⟨result, s⟩, rfl, hr⟩ := h
  cases result with
  | error err => exact ⟨_, rfl, hE s hr⟩
  | ok u => exact ⟨_, rfl, hP s hr⟩

theorem Outcome.gives_if {b : Prop} [Decidable b] {err : FTPError} (hP : b → P s) (hE : ¬b → E s) :
    Outcome.Gives (.ok (if b then .ok () else .error err, s)) P E := by
  refine ⟨_, rfl, ?_⟩
  by_cases h : b
  · rw [if_pos h]
    exact hP h
  · rw [if_neg h]
    exact hE h

/-! ### Replies that are owed -/

variable {server : Server} {asked : Asked} {digit : UInt8} {command : List UInt8}

theorem Reply.bytes_ne_nil (reply : Reply) : reply.bytes ≠ [] := by
  have hline : ∀ (line : SocketImpl.Line) (lines : List SocketImpl.Line),
      (line :: lines).flatMap SocketImpl.Line.bytes ≠ [] :=
    fun line lines => line.append_ne_nil _
  cases reply with
  | single code text => exact hline _ _
  | multi code first between last inner => exact hline _ _

/-- What was evaluated are the first replies; when nothing is unread they are all. -/
structure Sound (server : Server) (s : Session) : Prop where
  buffer : s.control.buffer.length = maxFTPResponseLength.toNat
  evaluated : ∃ said rest, s.said = said ++ rest ∧ List.Forall₂ (Complete server) s.evaluated said
  level : s.control.unread = [] → List.Forall₂ (Complete server) s.evaluated s.said

/-- The last reply is unread. -/
structure Owes (server : Server) (asked : Asked) (s : Session) : Prop where
  buffer : s.control.buffer.length = maxFTPResponseLength.toNat
  unread : s.control.unread = (server.reply asked).bytes
  said : ∃ said, s.said = said ++ [asked] ∧ List.Forall₂ (Complete server) s.evaluated said

theorem Owes.sound (h : Owes server asked s) : Sound server s where
  buffer := h.buffer
  evaluated := by
    obtain ⟨said, hsaid, hmatched⟩ := h.said
    exact ⟨said, _, hsaid, hmatched⟩
  level hunread := absurd (h.unread.symm.trans hunread) (Reply.bytes_ne_nil _)

theorem replies_unread (server : Server) (asked : Asked) (s : Session) :
    (s.replies server asked).control.unread ≠ [] :=
  List.append_ne_nil_of_right_ne_nil _ (Reply.bytes_ne_nil _)

theorem Sound.replies (h : Sound server s) (asked : Asked) : Sound server (s.replies server asked) where
  buffer := h.buffer
  evaluated := by
    obtain ⟨said, rest, hsaid, hmatched⟩ := h.evaluated
    refine ⟨said, rest ++ [asked], ?_, hmatched⟩
    rw [← List.append_assoc, ← hsaid]
    rfl
  level hunread := absurd hunread (replies_unread server asked s)

theorem Sound.owes (h : Sound server s) (hunread : s.control.unread = []) (asked : Asked) :
    Owes server asked (s.replies server asked) where
  buffer := h.buffer
  unread := by
    show s.control.unread ++ _ = _
    rw [hunread, List.nil_append]
  said := ⟨s.said, rfl, h.level hunread⟩

/-! ### Reading a reply -/

/-- A complete reply was taken. -/
structure Took (server : Server) (asked : Asked) (s s' : Session) : Prop where
  sound : Sound server s'
  unread : s'.control.unread = []
  text : ∃ line ∈ (server.reply asked).lines, Holds s'.control.buffer line.text
  same : s' = { s with control := s'.control, evaluated := s'.evaluated }

theorem Reply.digit_of_line (reply : Reply) {line : SocketImpl.Line} (h : reply.lines = [line])
    (digit : UInt8) : [digit] <+: line.text ↔ reply.code.first = digit := by
  cases reply with
  | single code text =>
    obtain rfl := (List.cons.inj h).1
    show [digit] <+: code.first :: _ ↔ code.first = digit
    rw [List.cons_prefix_cons]
    exact ⟨fun h => h.1.symm, fun h => ⟨h.symm, List.nil_prefix⟩⟩
  | multi code first between last inner =>
    have htail : between.map Text.line ++ [(code.text true last).line] = [] := (List.cons.inj h).2
    exact absurd htail (List.append_ne_nil_of_right_ne_nil _ (List.cons_ne_nil _ _))

/-- A line that comes in one piece shows in the buffer. -/
theorem showsLine_of_whole {line : SocketImpl.Line} (hcrlf : line.terminator = .crlf)
    {sizes : ℕ × ℕ} {r : SocketImpl.Reader} (hunread : r.unread = line.bytes)
    (hroom : line.bytes.length ≤ 256) (hpeek : line.bytes.length ≤ sizes.1 + 1)
    (htake : line.bytes.length ≤ sizes.2 + 1) :
    SocketImpl.ShowsLine maxFTPResponseLength line sizes r where
  within := by
    have hblock : r.unread.take (min 256 (sizes.1 + 1)) = line.bytes := by
      rw [hunread]
      exact List.take_of_length_le (le_min hroom hpeek)
    refine ⟨List.replicate (256 - line.bytes.length) (some 0) ++ r.buffer.drop 256, ?_⟩
    show SocketImpl.filled 256 (r.unread.take (min 256 (sizes.1 + 1))) r.buffer = _
    rw [hblock]
    rfl
  lone hlf := absurd (hcrlf.symm.trans hlf) nofun
  taken := htake

theorem Reply.crlf_of_line (reply : Reply) {line : SocketImpl.Line} (h : reply.lines = [line]) :
    line.terminator = .crlf := by
  cases reply with
  | single code text => exact (List.cons.inj h).1 ▸ rfl
  | multi code first between last inner => exact (List.cons.inj h).1 ▸ rfl

/-- The timeout is none that `read` takes. -/
def Session.RefusesTimeout (s : Session) : Prop :=
  1000000 ≤ s.ulReceivingAdditionalTimeoutInMicroSeconds

/-- The reply that is owed is read as one line, unless the timeout is refused. -/
theorem readFTPResponse_gives (h : Owes server asked s) (hwhole : Whole server asked) :
    (readFTPResponse server asked s).Gives
      (fun s' => s' = { s with control := s'.control } ∧ s'.control.unread = [] ∧
        s'.control.buffer.length = maxFTPResponseLength.toNat ∧
        ∃ line, (server.reply asked).lines = [line] ∧ Holds s'.control.buffer line.text)
      (fun s' => s' = s ∧ s.RefusesTimeout) := by
  obtain ⟨line, hlines, hroom, hpeek, htake⟩ := hwhole
  have hunread : s.control.unread = line.bytes := by
    rw [h.unread, Reply.bytes, hlines, List.flatMap_cons, List.flatMap_nil, List.append_nil]
  unfold readFTPResponse
  by_cases hmicros : s.ulReceivingAdditionalTimeoutInMicroSeconds < 1000000
  · have hshows := showsLine_of_whole (Reply.crlf_of_line _ hlines) hunread hroom hpeek htake
    obtain ⟨control, hread, hbuffer, hholds, hrest⟩ :=
      hshows.reads h.buffer (by decide) hmicros (hunread.trans (List.append_nil _).symm)
    refine ⟨(.ok (), { s with control := control }), ?_, rfl, hrest, hbuffer, line, hlines, hholds⟩
    rw [hread]
    rfl
  · have hread : SocketImpl.readLine maxFTPResponseLength
        s.ulReceivingAdditionalTimeoutInMicroSeconds (server.sizes asked) s.control =
        .ok (.error .activationWrong, s.control) := by
      unfold SocketImpl.readLine SocketImpl.read
      rw [if_pos (Or.inr (Nat.le_of_not_lt hmicros))]
      rfl
    refine ⟨(.error (.readLine .activationWrong), s), ?_, rfl, Nat.le_of_not_lt hmicros⟩
    rw [hread]
    rfl

theorem expect_gives (h : Owes server asked s) (hwhole : Whole server asked) (hdigit : digit ≠ 0) :
    (expect server asked digit s).Gives
      (fun s' => server.digit asked = digit ∧ Took server asked s s')
      (fun s' => s' = s ∧ s.RefusesTimeout ∨
        server.digit asked ≠ digit ∧ Took server asked s s') := by
  refine ((readFTPResponse_gives h hwhole).mono (fun _ => id) fun _ => Or.inl).andThen ?_
  rintro s' ⟨hsame, hunread, hbuffer, line, hlines, hholds⟩
  have hcmp : strncmp s'.control.buffer [digit] = _ :=
    hholds.strncmp_eq fun h0 => hdigit (List.mem_singleton.mp h0).symm
  obtain ⟨said, hsaid, hmatched⟩ := h.said
  have hcomplete : Complete server (asked, s'.control.buffer) asked := ⟨rfl, line, hlines, hholds⟩
  have hall : List.Forall₂ (Complete server) (s.evaluated ++ [(asked, s'.control.buffer)])
      s.said := by
    rw [hsaid]
    exact List.rel_append hmatched (.cons hcomplete .nil)
  have htook : Took server asked s
      { s' with evaluated := s'.evaluated ++ [(asked, s'.control.buffer)] } := by
    rw [hsame]
    exact ⟨⟨hbuffer, ⟨_, [], (List.append_nil _).symm, hall⟩, fun _ => hall⟩, hunread,
      ⟨line, hlines ▸ List.mem_singleton_self _, hholds⟩, rfl⟩
  dsimp only
  rw [hcmp, ok_bind]
  have hdigit_iff := Reply.digit_of_line _ hlines digit
  refine Outcome.gives_if (fun heq => ⟨hdigit_iff.mp (of_decide_eq_true heq), htook⟩) fun hne => ?_
  exact Or.inr ⟨fun heq => hne (decide_eq_true (hdigit_iff.mpr heq)), htook⟩

/-! ### Commands -/

/-- A command without a CR LF of its own is one line. -/
theorem commandLines_eq (hline : ¬[13, 10] <:+: command) (line : List UInt8) :
    commandLines line (command ++ [13, 10]) = [line ++ command] := by
  induction command generalizing line with
  | nil =>
    show [line] = [line ++ []]
    rw [List.append_nil]
  | cons c command ih =>
    have hrest := ih (fun h => hline (List.infix_cons h)) (line ++ [c])
    rw [List.append_assoc] at hrest
    cases command with
    | nil =>
      rw [List.cons_append, List.nil_append, commandLines, if_neg fun h => absurd h.2 (by decide)]
      exact hrest
    | cons d command =>
      rw [List.cons_append, List.cons_append, commandLines, if_neg]
      · exact hrest
      · rintro ⟨rfl, rfl⟩
        exact hline ⟨[], command, rfl⟩

theorem writeFTPCommand_eq (hline : ¬[13, 10] <:+: command) (s : Session) :
    writeFTPCommand server command s = s.receives server command := by
  unfold writeFTPCommand
  rw [commandLines_eq hline, List.nil_append]
  rfl

theorem receives_control (server : Server) (s : Session) (command : List UInt8) :
    s.receives server command =
      { Session.replies server (.command (s.commands ++ [command])) s with
        commands := s.commands ++ [command]
        receiving :=
          if bytesOf "STOR " <+: command ∧ server.digit (.command (s.commands ++ [command])) = 49 then
            some (s.commands ++ [command])
          else s.receiving } := by
  unfold Session.receives
  dsimp only
  split <;> rfl

theorem receiving_of_other (h : ¬bytesOf "STOR " <+: command) (s : Session) :
    (s.receives server command).receiving = s.receiving := by
  rw [receives_control]
  exact if_neg fun hstor => h hstor.1

/-- The server owes the reply to a command. -/
theorem Sound.receives (h : Sound server s) (hunread : s.control.unread = []) (command : List UInt8) :
    Owes server (.command (s.commands ++ [command])) (s.receives server command) := by
  have howes := h.owes hunread (.command (s.commands ++ [command]))
  rw [receives_control]
  exact ⟨howes.buffer, howes.unread, howes.said⟩

theorem ask_gives (h : Sound server s) (hunread : s.control.unread = [])
    (hline : ¬[13, 10] <:+: command) (hwhole : Whole server (.command (s.commands ++ [command])))
    (hdigit : digit ≠ 0) :
    (ask server command digit s).Gives
      (fun s' => server.digit (.command (s.commands ++ [command])) = digit ∧
        Took server (.command (s.commands ++ [command])) (s.receives server command) s')
      (fun s' => s' = s.receives server command ∧ s.RefusesTimeout ∨
        server.digit (.command (s.commands ++ [command])) ≠ digit ∧
          Took server (.command (s.commands ++ [command])) (s.receives server command) s') := by
  have htimeout : (s.receives server command).RefusesTimeout → s.RefusesTimeout := by
    rw [receives_control]
    exact id
  unfold ask
  rw [writeFTPCommand_eq hline]
  refine (expect_gives (h.receives hunread command) hwhole hdigit).mono (fun _ => id) ?_
  exact fun s' h => h.imp (fun h => ⟨h.1, htimeout h.2⟩) id

/-! ### Ends of a call -/

/-- What is kept to the end of a call. -/
structure Ended (server : Server) (s s' : Session) : Prop where
  sound : Sound server s'
  same : s'.phase = s.phase ∧
    s'.ulReceivingAdditionalTimeoutInMicroSeconds = s.ulReceivingAdditionalTimeoutInMicroSeconds
  idle : s'.receiving = none

theorem Ended.trans {s'' : Session} (h : Ended server s s') (h' : Ended server s' s'') :
    Ended server s s'' :=
  ⟨h'.sound, ⟨h'.same.1.trans h.same.1, h'.same.2.trans h.same.2⟩, h'.idle⟩

theorem Sound.closes (h : Sound server s) : Ended server s (s.closes server) := by
  unfold Session.closes
  cases hreceiving : s.receiving with
  | none => exact ⟨h, ⟨rfl, rfl⟩, hreceiving⟩
  | some commands =>
    have hsound : Sound server { s with receiving := none } := ⟨h.buffer, h.evaluated, h.level⟩
    exact ⟨hsound.replies _, ⟨rfl, rfl⟩, rfl⟩

/-- When there is something to read, it was there or is the final reply to a `STOR`. -/
theorem closes_unread (h : (s.closes server).control.unread ≠ []) (hunread : s.control.unread = []) :
    s.receiving ≠ none := by
  intro hnone
  unfold Session.closes at h
  rw [hnone] at h
  exact h hunread

theorem Took.ended (h : Took server asked s s') (hidle : s.receiving = none) : Ended server s s' := by
  have hsame := h.same
  refine ⟨h.sound, ⟨?_, ?_⟩, ?_⟩
  · rw [hsame]
  · rw [hsame]
  · rw [hsame]
    exact hidle

theorem receives_same (server : Server) (s : Session) (command : List UInt8) :
    (s.receives server command).phase = s.phase ∧
      (s.receives server command).ulReceivingAdditionalTimeoutInMicroSeconds =
        s.ulReceivingAdditionalTimeoutInMicroSeconds := by
  rw [receives_control]
  exact ⟨rfl, rfl⟩

theorem receives_commands (server : Server) (s : Session) (command : List UInt8) :
    (s.receives server command).commands = s.commands ++ [command] := by
  rw [receives_control]

theorem Took.commands {s₁ : Session} (h : Took server asked s₁ s') :
    s'.commands = s₁.commands := by
  rw [h.same]

/-! ### A call of `put` -/

variable {call : Put}

/-- What is known behind the first part of `put`. -/
structure Prepared (server : Server) (call : Put) (s s' : Session) : Prop where
  ended : Ended server s s'
  unread : s'.control.unread = []
  commands : s'.commands = s.commands ++ [bytesOf "PASV"]
  accepted : server.digit (.command (s.commands ++ [bytesOf "PASV"])) = 50
  address : TellsAddress server (.command (s.commands ++ [bytesOf "PASV"]))
  socketInit : call.socketInit

theorem getDataFTPClientSocket_gives (h : Sound server s) (hunread : s.control.unread = [])
    (hidle : s.receiving = none) (hmeets : call.Answered server s.commands) :
    (getDataFTPClientSocket server call s).Gives (Prepared server call s)
      (fun s' => Ended server s s' ∧ (s'.control.unread ≠ [] → s.RefusesTimeout)) := by
  have hpasv : ¬bytesOf "STOR " <+: bytesOf "PASV" := by decide
  have hreceiving : (s.receives server (bytesOf "PASV")).receiving = none :=
    (receiving_of_other hpasv s).trans hidle
  have hreceived : Ended server s (s.receives server (bytesOf "PASV")) :=
    ⟨(h.receives hunread _).sound, receives_same server s _, hreceiving⟩
  refine ((ask_gives h hunread hmeets.1 hmeets.2.1 (by decide)).mono (fun _ => id) ?_).andThen ?_
  · rintro s' (⟨rfl, hrefuses⟩ | ⟨-, htook⟩)
    · exact ⟨hreceived, fun _ => hrefuses⟩
    · exact ⟨hreceived.trans (htook.ended hreceiving), fun h => absurd htook.unread h⟩
  · rintro s' ⟨haccepted, htook⟩
    have hended := hreceived.trans (htook.ended hreceiving)
    have hread : Ended server s s' ∧ (s'.control.unread ≠ [] → s.RefusesTimeout) :=
      ⟨hended, fun h => absurd htook.unread h⟩
    obtain ⟨line, hline, hholds⟩ := htook.text
    by_cases hparen : 40 ∈ line.text
    · obtain ⟨p, q, -, -, hchr⟩ := hholds.strchr_split (by decide) hparen
      rw [hchr, ok_bind]
      refine Outcome.gives_if (fun hinit => ?_) fun _ => hread
      exact ⟨hended, htook.unread, htook.commands.trans (receives_commands _ _ _), haccepted,
        ⟨line, hline, hparen⟩, hinit⟩
    · rw [hholds.strchr_none (by decide) hparen, ok_bind]
      exact ⟨_, rfl, hread⟩

/-- `STOR` is accepted, and a local step behind it fails. -/
def Put.Leaves (server : Server) (commands : List (List UInt8)) (call : Put) : Prop :=
  server.digit (.command (commands ++ [call.stor])) = 49 ∧
    (call.transfer ≠ none ∨ call.finish = false)

/-- What is known when `STOR` or the transfer has failed. -/
structure Failed (server : Server) (call : Put) (s s' : Session) : Prop where
  sound : Sound server s'
  same : s'.phase = s.phase ∧
    s'.ulReceivingAdditionalTimeoutInMicroSeconds = s.ulReceivingAdditionalTimeoutInMicroSeconds
  left : s'.control.unread ≠ [] ∨ s'.receiving ≠ none →
    s.RefusesTimeout ∨ call.Leaves server s.commands

/-- What is known when the transfer has come to its end. -/
structure Transferred (server : Server) (call : Put) (s s' : Session) : Prop where
  sound : Sound server s'
  same : s'.phase = s.phase ∧
    s'.ulReceivingAdditionalTimeoutInMicroSeconds = s.ulReceivingAdditionalTimeoutInMicroSeconds
  unread : s'.control.unread = []
  receiving : s'.receiving = some (s.commands ++ [call.stor])
  accepted : server.digit (.command (s.commands ++ [call.stor])) = 49
  final : call.finish → Comes server (.final (s.commands ++ [call.stor])) 50 True

theorem store_gives (h : Sound server s) (hunread : s.control.unread = [])
    (hidle : s.receiving = none)
    (hmeets : call.getSocketImpl → call.stor.length + 2 + 1 < maxFTPCommandLength →
      Answered server s.commands call.stor 49 (call.transfer = none → call.finish →
        Comes server (.final (s.commands ++ [call.stor])) 50 True)) :
    (store server call s).Gives (Transferred server call s) (Failed server call s) := by
  have hunchanged : Failed server call s s :=
    ⟨h, ⟨rfl, rfl⟩, fun hleft => hleft.elim (absurd hunread) (absurd hidle)⟩
  unfold store
  by_cases hsocket : call.getSocketImpl
  · rw [if_pos hsocket]
    unfold askWith
    by_cases hlong : maxFTPCommandLength ≤ call.stor.length + 2 + 1
    · rw [if_pos hlong]
      exact ⟨_, rfl, hunchanged⟩
    rw [if_neg hlong]
    obtain ⟨hline, hwhole, hnext⟩ := hmeets hsocket (Nat.lt_of_not_le hlong)
    have hstor : bytesOf "STOR " <+: call.stor := List.prefix_append _ _
    have hsame := receives_same server s call.stor
    have htook_same : ∀ {s'}, Took server (.command (s.commands ++ [call.stor]))
        (s.receives server call.stor) s' → s'.phase = s.phase ∧
          s'.ulReceivingAdditionalTimeoutInMicroSeconds =
            s.ulReceivingAdditionalTimeoutInMicroSeconds := by
      intro s' htook
      rw [htook.same]
      exact hsame
    refine ((ask_gives h hunread hline hwhole (by decide)).mono (fun _ => id) ?_).andThen ?_
    · rintro s' (⟨rfl, hrefuses⟩ | ⟨hdigit, htook⟩)
      · exact ⟨(h.receives hunread call.stor).sound, hsame, fun _ => Or.inl hrefuses⟩
      · refine ⟨htook.sound, htook_same htook, fun hleft => ?_⟩
        have hnone : s'.receiving = none := by
          rw [htook.same, receives_control]
          exact (if_neg fun h => hdigit h.2).trans hidle
        exact hleft.elim (absurd htook.unread) (absurd hnone)
    · rintro s' ⟨haccepted, htook⟩
      cases htransfer : call.transfer with
      | some err =>
        refine ⟨_, rfl, htook.sound, htook_same htook, fun _ => Or.inr ⟨haccepted, Or.inl ?_⟩⟩
        rw [htransfer]
        exact nofun
      | none =>
        refine ⟨_, rfl, htook.sound, htook_same htook, htook.unread, ?_, haccepted,
          hnext haccepted htransfer⟩
        show s'.receiving = _
        rw [htook.same, receives_control]
        exact if_pos ⟨hstor, haccepted⟩
  · rw [if_neg hsocket]
    exact ⟨_, rfl, hunchanged⟩

theorem Transferred.closes (h : Transferred server call s s') :
    Owes server (.final (s.commands ++ [call.stor])) (s'.closes server) ∧
      .final (s.commands ++ [call.stor]) ∈ (s'.closes server).said := by
  have hsound : Sound server { s' with receiving := none } :=
    ⟨h.sound.buffer, h.sound.evaluated, h.sound.level⟩
  unfold Session.closes
  rw [h.receiving]
  exact ⟨hsound.owes h.unread _, List.mem_append_right _ (List.mem_singleton_self _)⟩

/-- The end of a `put`: what is left unread is the final reply to a `STOR`. -/
structure PutEnded (server : Server) (call : Put) (s s' : Session) : Prop extends
    Ended server s s' where
  left : s'.control.unread ≠ [] →
    s.RefusesTimeout ∨ call.Leaves server (s.commands ++ [bytesOf "PASV"])

theorem put_gives (h : Sound server s) (hunread : s.control.unread = [])
    (hidle : s.receiving = none) (hmeets : call.Answered server s.commands) :
    (put server call s).Gives
      (fun s' => PutEnded server call s s' ∧
        .final (s.commands ++ [bytesOf "PASV", call.stor]) ∈ s'.said ∧
        server.digit (.final (s.commands ++ [bytesOf "PASV", call.stor])) = 50)
      (PutEnded server call s) := by
  refine ((getDataFTPClientSocket_gives h hunread hidle hmeets).mono (fun _ => id)
    fun s' h => ?_).andThen fun s₁ hprepared => ?_
  · exact ⟨h.1, fun hleft => Or.inl (h.2 hleft)⟩
  have hcommands : s₁.commands ++ [call.stor] = s.commands ++ [bytesOf "PASV", call.stor] := by
    rw [hprepared.commands, List.append_assoc]
    rfl
  have hstor := hmeets.2.2 hprepared.accepted hprepared.address hprepared.socketInit
  rw [← hprepared.commands, ← hcommands] at hstor
  rw [← hcommands]
  have hrefuses : s₁.RefusesTimeout → s.RefusesTimeout := by
    unfold Session.RefusesTimeout
    rw [hprepared.ended.same.2]
    exact id
  have hstore := store_gives hprepared.ended.sound hprepared.unread hprepared.ended.idle hstor
  refine (hstore.onError fun s₂ hfailed => ?_).andThen fun s₂ htransferred => ?_
  · have hclosed := hfailed.sound.closes
    refine ⟨⟨hclosed.sound, ⟨?_, ?_⟩, hclosed.idle⟩, fun hleft => ?_⟩
    · exact hclosed.same.1.trans (hfailed.same.1.trans hprepared.ended.same.1)
    · exact hclosed.same.2.trans (hfailed.same.2.trans hprepared.ended.same.2)
    · rw [← hprepared.commands]
      refine (hfailed.left ?_).imp hrefuses id
      by_cases hunread₂ : s₂.control.unread = []
      · exact Or.inr (closes_unread hleft hunread₂)
      · exact Or.inl hunread₂
  · obtain ⟨howes, hsaid⟩ := htransferred.closes
    have hclosed := htransferred.sound.closes
    have hended : Ended server s (s₂.closes server) :=
      ⟨hclosed.sound,
        ⟨hclosed.same.1.trans (htransferred.same.1.trans hprepared.ended.same.1),
          hclosed.same.2.trans (htransferred.same.2.trans hprepared.ended.same.2)⟩, hclosed.idle⟩
    dsimp only
    by_cases hfinish : call.finish
    · rw [if_pos hfinish]
      refine (expect_gives howes (htransferred.final hfinish).1 (by decide)).mono ?_ ?_
      · rintro s' ⟨hdigit, htook⟩
        refine ⟨⟨hended.trans (htook.ended hclosed.idle), fun h => absurd htook.unread h⟩, ?_, hdigit⟩
        rw [htook.same]
        exact hsaid
      · rintro s' (⟨rfl, hrefused⟩ | ⟨-, htook⟩)
        · refine ⟨hended, fun _ => Or.inl (hrefuses ?_)⟩
          unfold Session.RefusesTimeout at hrefused ⊢
          rw [hclosed.same.2, htransferred.same.2] at hrefused
          exact hrefused
        · exact ⟨hended.trans (htook.ended hclosed.idle), fun h => absurd htook.unread h⟩
    · rw [if_neg hfinish]
      refine ⟨_, rfl, hended, fun _ => Or.inr ?_⟩
      rw [← hprepared.commands]
      exact ⟨htransferred.accepted, Or.inr (Bool.eq_false_iff.mpr hfinish)⟩

/-! ### `init` -/

/-- What `init` keeps from reply to reply. -/
structure Talking (server : Server) (commands : List (List UInt8)) (s : Session) : Prop where
  sound : Sound server s
  unread : s.control.unread = []
  idle : s.receiving = none
  commands : s.commands = commands

theorem ask_answered {commands : List (List UInt8)} {P : Prop} (h : Talking server commands s)
    (hother : ¬bytesOf "STOR " <+: command) (hanswered : Answered server commands command digit P)
    (hdigit : digit ≠ 0) :
    (ask server command digit s).Gives
      (fun s' => Talking server (commands ++ [command]) s' ∧ P) (Sound server) := by
  obtain ⟨hsound, hunread, hidle, rfl⟩ := h
  obtain ⟨hline, hwhole, hnext⟩ := hanswered
  refine (ask_gives hsound hunread hline hwhole hdigit).mono ?_ ?_
  · rintro s' ⟨hreply, htook⟩
    refine ⟨⟨htook.sound, htook.unread, ?_, ?_⟩, hnext hreply⟩
    · exact (htook.ended ((receiving_of_other hother s).trans hidle)).idle
    · exact htook.commands.trans (receives_commands server s command)
  · rintro s' (⟨rfl, -⟩ | ⟨-, htook⟩)
    · exact (hsound.receives hunread command).sound
    · exact htook.sound

theorem askWith_answered {commands : List (List UInt8)} {P : Prop} (h : Talking server commands s)
    (hother : ¬bytesOf "STOR " <+: command) (hanswered : Answered server commands command digit P)
    (hdigit : digit ≠ 0) :
    (askWith server command digit s).Gives
      (fun s' => Talking server (commands ++ [command]) s' ∧ P) (Sound server) := by
  unfold askWith
  split
  · exact ⟨_, rfl, h.sound⟩
  · exact ask_answered h hother hanswered hdigit

theorem init_gives {login : Login} (h : Owes server .greeting s) (hidle : s.receiving = none)
    (hcommands : s.commands = []) (hmeets : login.Answered server) :
    (init server login s).Gives
      (fun s' => Talking server [login.user, login.pass, login.type] s' ∧ s'.phase = .loggedIn)
      (fun s' => Sound server s' ∧ s'.phase = .finished) := by
  unfold init
  by_cases hlong : login.TooLong
  · rw [if_pos hlong]
    exact ⟨_, rfl, ⟨h.buffer, h.sound.evaluated, h.sound.level⟩, rfl⟩
  rw [if_neg hlong]
  dsimp only
  obtain ⟨hgreeting, hnext⟩ := hmeets hlong
  -- only the timeout is set before the greeting is read
  obtain ⟨s₁, hs₁, howes, hidle₁, hcommands₁⟩ : ∃ s₁, s₁ = { s with
      ulReceivingAdditionalTimeoutInMicroSeconds :=
        login.ulReceivingAdditionalTimeoutInMicroSeconds } ∧ Owes server .greeting s₁ ∧
      s₁.receiving = none ∧ s₁.commands = [] := by
    refine ⟨_, rfl, ?_, hidle, hcommands⟩
    exact ⟨h.buffer, h.unread, h.said⟩
  rw [← hs₁]
  have huser : ¬bytesOf "STOR " <+: login.user :=
    fun h => absurd (List.cons_prefix_cons.mp h).1 (by decide)
  have hpass : ¬bytesOf "STOR " <+: login.pass :=
    fun h => absurd (List.cons_prefix_cons.mp h).1 (by decide)
  have htype : ¬bytesOf "STOR " <+: login.type := by
    unfold Login.type
    split <;> decide
  have hgreeted : (expect server .greeting 50 s₁).Gives
      (fun s' => Talking server [] s' ∧ Answered server [] login.user 51 (
        Answered server [login.user] login.pass 50 (
          Answered server [login.user, login.pass] login.type 50 True)))
      (Sound server) := by
    refine (expect_gives howes hgreeting (by decide)).mono ?_ ?_
    · rintro s' ⟨hreply, htook⟩
      exact ⟨⟨htook.sound, htook.unread, (htook.ended hidle₁).idle,
        htook.commands.trans hcommands₁⟩, hnext hreply⟩
    · rintro s' (⟨rfl, -⟩ | ⟨-, htook⟩)
      · exact howes.sound
      · exact htook.sound
  have hexchange := ((hgreeted.andThen fun s' h => askWith_answered h.1 huser h.2 (by decide)).andThen
    fun s' h => askWith_answered h.1 hpass h.2 (by decide)).andThen
    fun s' h => ask_answered h.1 htype h.2 (by decide)
  refine (hexchange.andThen fun s' h => ?_).onError fun s' hs' =>
    ⟨⟨hs'.buffer, hs'.evaluated, hs'.level⟩, rfl⟩
  obtain ⟨⟨hsound, hunread, hidle, hcommands⟩, -⟩ := h
  exact ⟨_, rfl, ⟨⟨hsound.buffer, hsound.evaluated, hsound.level⟩, hunread, hidle, hcommands⟩, rfl⟩

/-! ### Every session -/

/-- What holds of a session from call to call. -/
def Kept (server : Server) (s : Session) : Prop :=
  match s.phase with
  | .connected => Owes server .greeting s ∧ s.receiving = none ∧ s.commands = []
  | .loggedIn => Sound server s ∧ s.receiving = none
  | .finished => True
  | .undefined => False

theorem start_kept {pLastFTPResponse : Cells UInt8}
    (h : pLastFTPResponse.length = maxFTPResponseLength.toNat) :
    Kept server (Session.start server pLastFTPResponse) := by
  have hsound : Sound server ⟨.connected, ⟨pLastFTPResponse, []⟩, 0, [], none, [], []⟩ :=
    ⟨h, ⟨[], [], rfl, .nil⟩, fun _ => .nil⟩
  exact ⟨hsound.owes rfl .greeting, rfl, rfl⟩

theorem Outcome.Gives.session (h : outcome.Gives P E) (s : Session) :
    P (outcome.session s) ∧ outcome = .ok (.ok (), outcome.session s) ∨
      E (outcome.session s) ∧ ∃ err, outcome = .ok (.error err, outcome.session s) := by
  obtain ⟨⟨result, s'⟩, rfl, hr⟩ := h
  cases result with
  | error err => exact Or.inr ⟨hr, err, rfl⟩
  | ok u => exact Or.inl ⟨hr, rfl⟩

theorem step_kept {call : Call} (h : Kept server s) (hmeets : Meets server s call)
    (hstep : step server s call = some s') : Kept server s' ∧ Paired server s call s' := by
  unfold step at hstep
  unfold Kept at h
  split at hstep
  · next login hphase =>
    rw [hphase] at h
    obtain ⟨howes, hidle, hcommands⟩ := h
    have hinit := init_gives howes hidle hcommands hmeets
    obtain rfl := Option.some.inj hstep
    rcases hinit.session s with ⟨⟨htalking, hphase'⟩, -⟩ | ⟨⟨hsound, hphase'⟩, -⟩
    · refine ⟨?_, htalking.sound.evaluated, nofun, hphase' ▸ nofun⟩
      unfold Kept
      rw [hphase']
      exact ⟨htalking.sound, htalking.idle⟩
    · refine ⟨?_, hsound.evaluated, nofun, hphase' ▸ nofun⟩
      unfold Kept
      rw [hphase']
      trivial
  · next call hphase =>
    rw [hphase] at h
    obtain ⟨hsound, hidle⟩ := h
    obtain ⟨hunread, hanswered⟩ := hmeets
    have hput := put_gives hsound hunread hidle hanswered
    obtain rfl := Option.some.inj hstep
    have hkept : ∀ s', Ended server s s' → Kept server s' ∧ s'.phase ≠ .undefined := by
      intro s' hended
      have hphase' := hended.same.1.trans hphase
      refine ⟨?_, hphase' ▸ nofun⟩
      unfold Kept
      rw [hphase']
      exact ⟨hended.sound, hended.idle⟩
    rcases hput.session s with ⟨⟨hended, hstored⟩, -⟩ | ⟨hended, err, hrun⟩
    · obtain ⟨hkept, hdefined⟩ := hkept _ hended.toEnded
      refine ⟨hkept, hended.sound.evaluated, ?_, hdefined⟩
      rintro p hp -
      obtain rfl := Call.put.inj hp
      exact hstored
    · obtain ⟨hkept, hdefined⟩ := hkept _ hended.toEnded
      refine ⟨hkept, hended.sound.evaluated, ?_, hdefined⟩
      rintro p hp hsuccess
      obtain rfl := Call.put.inj hp
      exact absurd (Prod.mk.inj (Except.ok.inj (hrun.symm.trans hsuccess))).1 nofun
  · cases hstep

/-- **Nothing is left unread** by a `put` whose transfer does not fail once `STOR` was accepted, if the
time-out of the socket is one that it takes. -/
theorem step_unread {call : Put} (h : Kept server s) (hmeets : Meets server s (.put call))
    (htimeout : ¬s.RefusesTimeout)
    (hleaves : ¬call.Leaves server (s.commands ++ [bytesOf "PASV"]))
    (hstep : step server s (.put call) = some s') : s'.control.unread = [] := by
  unfold step at hstep
  unfold Kept at h
  split at hstep
  · next hcall => cases hcall
  · next hphase hcall =>
    cases hcall
    rw [hphase] at h
    obtain rfl := Option.some.inj hstep
    have hended : PutEnded server call s ((put server call s).session s) := by
      rcases (put_gives h.1 hmeets.1 h.2 hmeets.2).session s with ⟨⟨hended, -⟩, -⟩ | ⟨hended, -⟩
      · exact hended
      · exact hended
    exact not_not.mp fun hleft => (hended.left hleft).elim htimeout hleaves
  · cases hstep

/-- **Sessions whose calls meet the condition.**  Each reply is taken for its own command, and a `put`
returns success only when its own `STOR` was completed. -/
theorem paired_of_meets (server : Server) (pLastFTPResponse : Cells UInt8) (calls : List Call)
    (hpLastFTPResponse : pLastFTPResponse.length = maxFTPResponseLength.toNat)
    (hmeets : Transition.Always (step server) (fun s call _ => Meets server s call)
      (Session.start server pLastFTPResponse) calls) :
    Transition.Always (step server) (Paired server) (Session.start server pLastFTPResponse) calls :=
  Transition.always_of_invariant (P := fun s call _ => Meets server s call) (Q := Paired server)
    (fun _ _ _ => step_kept) (start_kept hpLastFTPResponse) hmeets

/-- The commands of the replies that were evaluated are those of the first replies. -/
theorem Paired.map_fst_evaluated {call : Call} (h : Paired server s call s') :
    s'.evaluated.map Prod.fst <+: s'.said := by
  obtain ⟨said, rest, hsaid, hmatched⟩ := h.evaluated
  have heq : s'.evaluated.map Prod.fst = said := by
    clear hsaid
    generalize s'.evaluated = evaluated at hmatched
    induction hmatched with
    | nil => rfl
    | cons h hrest ih => rw [List.map_cons, ih, h.1]
  exact ⟨rest, by rw [heq, hsaid]⟩

/-- A code from its digits. -/
def Code.of (first second third : UInt8)
    (h : (48 ≤ first ∧ first ≤ 57) ∧ (48 ≤ second ∧ second ≤ 57) ∧ 48 ≤ third ∧ third ≤ 57) : Code where
  first := first
  second := second
  third := third
  digits := List.forall_mem_cons.mpr ⟨h.1, List.forall_mem_cons.mpr ⟨h.2.1,
    List.forall_mem_singleton.mpr h.2.2⟩⟩

/-- A server that accepts everything. -/
def acceptingServer : Server where
  reply asked :=
    let code : Code := match asked with
      | .greeting => .of 50 50 48 (by decide)
      | .command commands =>
        if bytesOf "USER " <+: commands.getLastD [] then .of 51 51 49 (by decide)
        else if bytesOf "STOR " <+: commands.getLastD [] then .of 49 53 48 (by decide)
        else .of 50 50 55 (by decide)
      | .final _ => .of 50 50 54 (by decide)
    .single code ⟨bytesOf "(1,2,3,4,5,6)", by decide, by decide⟩
  sizes _ := (255, 255)
  short asked line h := by
    obtain rfl := List.mem_singleton.mp h
    show 17 < 256
    decide

theorem acceptingServer_whole (asked : Asked) : Whole acceptingServer asked :=
  ⟨_, rfl, by show 19 ≤ 256; decide, by show 19 ≤ 256; decide, by show 19 ≤ 256; decide⟩

def aLogin : Login := ⟨⟨[117], by decide⟩, ⟨[112], by decide⟩, .image, 0⟩

/-- A call whose transfer goes as it says. -/
def aPut (transfer : Option TransferError) : Put := ⟨⟨[102], by decide⟩, true, true, transfer, true⟩

theorem paired_of_meets_stored :
    Transition.Always (step acceptingServer) (Paired acceptingServer)
      (Session.start acceptingServer (List.replicate 257 (some 0)))
      [.init aLogin, .put (aPut none)] := by
  refine paired_of_meets acceptingServer _ _ (by decide +kernel) fun s hs => ⟨fun _ => ?_, ?_⟩
  · exact ⟨acceptingServer_whole _, fun _ => ⟨by decide, acceptingServer_whole _, fun _ =>
      ⟨by decide, acceptingServer_whole _, fun _ =>
        ⟨by decide, acceptingServer_whole _, fun _ => trivial⟩⟩⟩⟩
  · have hread : (step acceptingServer (Session.start acceptingServer (List.replicate 257 (some 0)))
        (.init aLogin)).map (fun s => s.control.unread) = some [] := by decide +kernel
    rw [hs] at hread
    refine fun _ _ => ⟨⟨Option.some.inj hread, by decide, acceptingServer_whole _, ?_⟩, trivial⟩
    exact fun _ _ _ _ _ => ⟨by decide, acceptingServer_whole _, fun _ _ _ =>
      ⟨acceptingServer_whole _, fun _ => trivial⟩⟩

/-- When the file of the first `put` cannot be opened, the final reply to its `STOR` is taken for the
one to the next `PASV`. -/
theorem not_paired_unopened :
    ¬Transition.Always (step acceptingServer) (Paired acceptingServer)
      (Session.start acceptingServer (List.replicate 257 (some 0)))
      ([.init aLogin, .put (aPut (some .fileReaderInit))] ++ [.put (aPut none)]) := by
  intro hall
  have hasked : (Transition.run (step acceptingServer)
      (Session.start acceptingServer (List.replicate 257 (some 0)))
      ([.init aLogin, .put (aPut (some .fileReaderInit))] ++ [.put (aPut none)])).map
      (fun s => (s.evaluated.map Prod.fst).isPrefixOf s.said) = some false := by decide +kernel
  rw [Transition.run_concat] at hasked
  obtain ⟨s', hs', hasked⟩ := Option.map_eq_some_iff.mp hasked
  obtain ⟨s, hrun, hstep⟩ := Option.bind_eq_some_iff.mp hs'
  have hprefix := (hall.last hrun hstep).map_fst_evaluated
  rw [← List.isPrefixOf_iff_prefix, hasked] at hprefix
  cases hprefix

end MyFTP

end CatraLibraries
