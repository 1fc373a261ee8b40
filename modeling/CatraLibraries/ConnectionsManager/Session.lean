/-
# Writing a response to a client

`ConnectionsManager/src/Session.cpp`, `writeResponse`, with `writeString` of
`Socket/src/SocketImpl.cpp`.  A response is written only for the connection it was made for:
the start time of the connection has to be the session's.  The header and the body go through
C strings, and a response that is finished puts the socket back in the sockets pool.  For the
log, the new lines of both buffers are replaced in place afterwards.

The connection is an arbitrary schedule of what the checks for writing report, how many bytes
each `sendto` takes, and which calls of `addSocket` work.

`respond` is the same on byte strings, and `writeResponse_respond` connects the two.
-/
import CatraLibraries.Tools.BufferBytes

namespace CatraLibraries

open Memory CString Substring

/-- The codes that `writeResponse` returns. -/
inductive SessionError
  | errNoError
  | responseNotSentBecauseOldSocket
  | socketWriteStringFailed
  | addSocketFailed
  deriving DecidableEq, Repr

/-- The connection to a client: what it has received, and what the following calls report. -/
structure Client where
  received : List UInt8
  /-- `isReadyForWriting`; `none` where the call itself fails. -/
  isReadyForWriting : Nat → Option Bool
  checks : Nat
  /-- How many bytes `sendto` takes; `none` is its -1. -/
  accepts : Nat → Option Nat
  sends : Nat

namespace Client

/-- The loop `while (lBytesNotWritten > 0)`. -/
def sendLoop : Nat → List UInt8 → Client → Except Fault (Bool × Client)
  | 0, _, _ => .error .outOfFuel
  | fuel + 1, bytes, c =>
    if bytes = [] then .ok (true, c)
    else
      match c.accepts c.sends with
      | none => .ok (false, { c with sends := c.sends + 1 })
      | some n =>
        let lWriteReturn := max 1 (min n bytes.length)
        sendLoop fuel (bytes.drop lWriteReturn)
          { c with
            received := c.received ++ bytes.take lWriteReturn
            sends := c.sends + 1 }

/-- `writeString (pString, true, …)`: whether the whole string has been written. -/
def writeString (pString : Cells UInt8) (c : Client) : Except Fault (Bool × Client) :=
  match c.isReadyForWriting c.checks with
  | some true => do
    let bytes ← cstr pString
    sendLoop (bytes.length + 1) bytes { c with checks := c.checks + 1 }
  | _ => .ok (false, { c with checks := c.checks + 1 })

end Client

/-- What `writeResponse` reads and writes of a session. -/
structure ClientSession where
  tUTCStartConnectionTime : Nat
  client : Client
  /-- Whether the successive calls of `addSocket` work. -/
  addSocketWorks : Nat → Bool
  addSockets : Nat
  /-- How often a finished response has put the socket in the sockets pool. -/
  registered : Nat

namespace ClientSession

/-- `CM_SESSION_HTTPNEWLINE` and `CM_SESSION_NEWLINE`. -/
def httpNewLine : CStr := ⟨[13, 10], by decide⟩

def newLine : CStr := ⟨[10], by decide⟩

def blank : CStr := ⟨[32], by decide⟩

/-- One of the two parts of a response, if there is one and it has a length. -/
def writePart (pbResponse : Option Buffer) (s : ClientSession) :
    Except Fault (Bool × ClientSession) :=
  match pbResponse with
  | none => .ok (true, s)
  | some b =>
    if b.length > 0 then do
      let (written, client) ← s.client.writeString b.pBuffer
      return (written, { s with client := client })
    else .ok (true, s)

/-- The new lines of a part become blanks, for the log; the error code is not looked at. -/
def logPart (pattern : CStr) (pbResponse : Option Buffer) : Except Fault (Option Buffer) :=
  match pbResponse with
  | none => .ok none
  | some b => do
    let (_, b) ← b.substitute (some pattern.cells) (some blank.cells)
    return some b

/-- The socket goes back to the sockets pool. -/
def addSocket (s : ClientSession) : SessionError × ClientSession :=
  if s.addSocketWorks s.addSockets then
    (.errNoError, { s with addSockets := s.addSockets + 1, registered := s.registered + 1 })
  else (.addSocketFailed, { s with addSockets := s.addSockets + 1 })

/-- `writeResponse (ptUTCStartConnectionTime, pbResponseHeader, pbResponseBody,
bIsResponseFinished)`; the buffers come back as the log has left them. -/
def writeResponse (tUTCStartConnectionTime : Nat) (pbResponseHeader pbResponseBody : Option Buffer)
    (bIsResponseFinished : Bool) (s : ClientSession) :
    Except Fault (SessionError × ClientSession × Option Buffer × Option Buffer) :=
  if tUTCStartConnectionTime ≠ s.tUTCStartConnectionTime then
    .ok (.responseNotSentBecauseOldSocket, s, pbResponseHeader, pbResponseBody)
  else do
    let (written, s) ← s.writePart pbResponseHeader
    if !written then
      return (.socketWriteStringFailed, s, pbResponseHeader, pbResponseBody)
    else
      let (written, s) ← s.writePart pbResponseBody
      if !written then
        return (.socketWriteStringFailed, s, pbResponseHeader, pbResponseBody)
      else
        let pbResponseHeader ← logPart httpNewLine pbResponseHeader
        let pbResponseBody ← logPart newLine pbResponseBody
        let (err, s) := if bIsResponseFinished then s.addSocket else (.errNoError, s)
        return (err, s, pbResponseHeader, pbResponseBody)

end ClientSession

/-! ### The same on byte strings -/

namespace Client

/-- The sending loop, which ends in as many turns as there are bytes. -/
def sendAll : Nat → List UInt8 → Client → Bool × Client
  | 0, _, c => (true, c)
  | n + 1, bytes, c =>
    if bytes = [] then (true, c)
    else
      match c.accepts c.sends with
      | none => (false, { c with sends := c.sends + 1 })
      | some k =>
        let k := max 1 (min k bytes.length)
        sendAll n (bytes.drop k)
          { c with
            received := c.received ++ bytes.take k
            sends := c.sends + 1 }

theorem sendLoop_eq (n fuel : Nat) (bytes : List UInt8) (c : Client) (hn : bytes.length ≤ n)
    (hfuel : bytes.length < fuel) : sendLoop fuel bytes c = .ok (sendAll n bytes c) := by
  induction fuel generalizing n bytes c with
  | zero => omega
  | succ fuel ih =>
    unfold sendLoop
    by_cases hbytes : bytes = []
    · subst hbytes
      cases n <;> simp [sendAll]
    · have hpos := List.length_pos_iff.mpr hbytes
      obtain ⟨n, rfl⟩ : ∃ k, n = k + 1 := ⟨n - 1, by omega⟩
      rw [if_neg hbytes, sendAll, if_neg hbytes]
      cases c.accepts c.sends with
      | none => rfl
      | some k =>
        refine ih n _ _ ?_ ?_ <;>
        · rw [List.length_drop]
          omega

/-- A string is written, after the check. -/
def write (bytes : List UInt8) (c : Client) : Bool × Client :=
  if c.isReadyForWriting c.checks = some true then
    sendAll bytes.length bytes { c with checks := c.checks + 1 }
  else (false, { c with checks := c.checks + 1 })

theorem writeString_eq {m : Cells UInt8} {bytes : List UInt8} (hm : Holds m bytes) (c : Client) :
    writeString m c = .ok (c.write bytes) := by
  unfold writeString write
  cases hready : c.isReadyForWriting c.checks with
  | none => rfl
  | some ready =>
    cases ready with
    | false => rfl
    | true =>
      rw [if_pos rfl, hm.cstr_eq]
      exact sendLoop_eq _ _ bytes _ le_rfl (Nat.lt_succ_self _)

/-- Every check and every `sendto` from now on works. -/
structure Reliable (c : Client) : Prop where
  ready : ∀ i, c.isReadyForWriting i = some true
  accepts : ∀ i, c.accepts i ≠ none

theorem sendAll_reliable (n : Nat) {bytes : List UInt8} {c : Client} (h : c.Reliable)
    (hn : bytes.length ≤ n) :
    (sendAll n bytes c).1 = true ∧
      (sendAll n bytes c).2.received = c.received ++ bytes ∧ (sendAll n bytes c).2.Reliable := by
  induction n generalizing bytes c with
  | zero =>
    obtain rfl := List.length_eq_zero_iff.mp (Nat.le_zero.mp hn)
    simpa [sendAll] using h
  | succ n ih =>
    unfold sendAll
    by_cases hbytes : bytes = []
    · rw [if_pos hbytes, hbytes]
      simpa using h
    · rw [if_neg hbytes]
      obtain ⟨k, hk⟩ := Option.ne_none_iff_exists'.mp (h.accepts c.sends)
      rw [hk]
      have hlen : (bytes.drop (max 1 (min k bytes.length))).length ≤ n := by
        rw [List.length_drop]
        omega
      obtain ⟨hok, hrec, hrel⟩ := ih
        (c := { c with
          received := c.received ++ bytes.take (max 1 (min k bytes.length))
          sends := c.sends + 1 }) ⟨h.ready, h.accepts⟩ hlen
      refine ⟨hok, ?_, hrel⟩
      rw [hrec, List.append_assoc, List.take_append_drop]

/-- **A reliable connection takes the whole string.** -/
theorem write_reliable {c : Client} (h : c.Reliable) (bytes : List UInt8) :
    (c.write bytes).1 = true ∧ (c.write bytes).2.received = c.received ++ bytes ∧
      (c.write bytes).2.Reliable := by
  unfold write
  rw [if_pos (h.ready _)]
  exact sendAll_reliable _ (c := { c with checks := c.checks + 1 }) ⟨h.ready, h.accepts⟩ le_rfl

end Client

namespace ClientSession

/-- One part of a response; from its first zero byte on, nothing of it is written. -/
def sendPart (bytes : Option (List UInt8)) (s : ClientSession) : Bool × ClientSession :=
  match bytes with
  | none => (true, s)
  | some bytes =>
    if bytes = [] then (true, s)
    else ((s.client.write (visible bytes)).1,
      { s with client := (s.client.write (visible bytes)).2 })

/-- `writeResponse`, on byte strings. -/
def respond (tUTCStartConnectionTime : Nat) (header body : Option (List UInt8)) (finished : Bool)
    (s : ClientSession) : SessionError × ClientSession :=
  if tUTCStartConnectionTime ≠ s.tUTCStartConnectionTime then
    (.responseNotSentBecauseOldSocket, s)
  else if (s.sendPart header).1 = false then
    (.socketWriteStringFailed, (s.sendPart header).2)
  else if ((s.sendPart header).2.sendPart body).1 = false then
    (.socketWriteStringFailed, ((s.sendPart header).2.sendPart body).2)
  else if finished then ((s.sendPart header).2.sendPart body).2.addSocket
  else (.errNoError, ((s.sendPart header).2.sendPart body).2)

/-- The bytes a buffer holds, where there is a buffer. -/
def Stored (pb : Option Buffer) (bytes : Option (List UInt8)) : Prop :=
  match pb, bytes with
  | none, none => True
  | some b, some bytes => Buffer.Contents b bytes
  | _, _ => False

/-- A buffer that is there is in order. -/
def InOrder (pb : Option Buffer) : Prop := ∀ b ∈ pb, Buffer.Ready b

theorem writePart_eq {pb : Option Buffer} {bytes : Option (List UInt8)} (h : Stored pb bytes)
    (s : ClientSession) : s.writePart pb = .ok (s.sendPart bytes) := by
  match pb, bytes, h with
  | none, none, _ => rfl
  | some b, some bytes, h =>
    have hc : Buffer.Contents b bytes := h
    unfold writePart sendPart
    dsimp only
    rw [hc.inUse.length_eq_chars, hc.chars]
    by_cases hbytes : bytes = []
    · subst hbytes
      rfl
    · rw [if_pos (List.length_pos_iff.mpr hbytes), if_neg hbytes,
        Client.writeString_eq hc.storage.holds, ok_bind]
      rfl

theorem Stored.inOrder {pb : Option Buffer} {bytes : Option (List UInt8)} (h : Stored pb bytes) :
    InOrder pb := by
  rintro b hb
  obtain rfl := Option.mem_def.mp hb
  match bytes, h with
  | some bytes, h => exact Buffer.Contents.ready h

/-- The log leaves a part without zero bytes in order, unless there is no memory for it. -/
theorem logPart_header {pb : Option Buffer} {header : Option (List UInt8)} (h : Stored pb header)
    (hnul : ∀ t ∈ header, 0 ∉ t ∧ t.length < 2 ^ 32) :
    logPart httpNewLine pb = .error .badAlloc ∨
      ∃ pb', logPart httpNewLine pb = .ok pb' ∧ InOrder pb' := by
  match pb, header, h with
  | none, none, _ => exact Or.inr ⟨none, rfl, by simp [InOrder]⟩
  | some b, some t, h =>
    obtain ⟨h0, hlen⟩ := hnul t rfl
    have hsub := Buffer.substitute_simulates h h0 httpNewLine blank (by decide)
      (fun i _ => ⟨by decide, fun _ => by omega⟩) (Nat.mul_zero _ ▸ by decide)
    rcases hsub with hbad | ⟨b', hb', hc, -⟩
    · exact Or.inl (by rw [logPart, hbad, error_bind])
    · refine Or.inr ⟨some b', by rw [logPart, hb', ok_bind]; rfl, ?_⟩
      rintro b'' hb''
      obtain rfl := Option.mem_some_iff.mp hb''
      exact hc.ready

/-- The log of a body keeps its length and needs no memory. -/
theorem logPart_body {pb : Option Buffer} (h : InOrder pb) :
    ∃ pb', logPart newLine pb = .ok pb' ∧ InOrder pb' := by
  match pb with
  | none => exact ⟨none, rfl, by simp [InOrder]⟩
  | some b =>
    obtain ⟨b', hb', hready⟩ := Buffer.substitute_ready (h b rfl) newLine blank (by decide) rfl
      (by decide)
    refine ⟨some b', by rw [logPart, hb', ok_bind]; rfl, ?_⟩
    rintro b'' hb''
    obtain rfl := Option.mem_some_iff.mp hb''
    exact hready

/-- **`writeResponse` is `respond` on the bytes of the two buffers**, which stay in order. -/
theorem writeResponse_respond (t : Nat) {pbHeader pbBody : Option Buffer}
    {header body : Option (List UInt8)} (hheader : Stored pbHeader header)
    (hbody : Stored pbBody body) (hnul : ∀ h ∈ header, 0 ∉ h ∧ h.length < 2 ^ 32)
    (finished : Bool) (s : ClientSession) :
    s.writeResponse t pbHeader pbBody finished = .error .badAlloc ∨
      ∃ pbHeader' pbBody',
        s.writeResponse t pbHeader pbBody finished
          = .ok ((s.respond t header body finished).1, (s.respond t header body finished).2,
              pbHeader', pbBody') ∧ InOrder pbHeader' ∧ InOrder pbBody' := by
  unfold writeResponse respond
  by_cases hold : t ≠ s.tUTCStartConnectionTime
  · rw [if_pos hold, if_pos hold]
    exact Or.inr ⟨_, _, rfl, hheader.inOrder, hbody.inOrder⟩
  rw [if_neg hold, if_neg hold, writePart_eq hheader, ok_bind]
  rcases s.sendPart header with ⟨written₁, s₁⟩
  cases written₁ with
  | false => exact Or.inr ⟨_, _, rfl, hheader.inOrder, hbody.inOrder⟩
  | true =>
    dsimp only
    rw [writePart_eq hbody, ok_bind]
    rcases s₁.sendPart body with ⟨written₂, s₂⟩
    cases written₂ with
    | false => exact Or.inr ⟨_, _, rfl, hheader.inOrder, hbody.inOrder⟩
    | true =>
      obtain ⟨pbBody', hlog, hbody'⟩ := logPart_body hbody.inOrder
      rcases logPart_header hheader hnul with hbad | ⟨pbHeader', hlog', hheader'⟩
      · exact Or.inl (by simp [hbad])
      · refine Or.inr ⟨pbHeader', pbBody', ?_, hheader', hbody'⟩
        cases finished <;> simp [hlog, hlog', addSocket, pure, Except.pure]

/-! ### What a response does -/

/-- What is written of a part: the bytes before its first zero. -/
def partWritten (bytes : Option (List UInt8)) : List UInt8 := visible (bytes.getD [])

@[simp] theorem sendPart_start (bytes : Option (List UInt8)) (s : ClientSession) :
    (s.sendPart bytes).2.tUTCStartConnectionTime = s.tUTCStartConnectionTime := by
  unfold sendPart
  split
  · rfl
  · split_ifs <;> rfl

@[simp] theorem sendPart_registered (bytes : Option (List UInt8)) (s : ClientSession) :
    (s.sendPart bytes).2.registered = s.registered := by
  unfold sendPart
  split
  · rfl
  · split_ifs <;> rfl

@[simp] theorem addSocket_start (s : ClientSession) :
    s.addSocket.2.tUTCStartConnectionTime = s.tUTCStartConnectionTime := by
  unfold addSocket
  split_ifs <;> rfl

@[simp] theorem addSocket_client (s : ClientSession) : s.addSocket.2.client = s.client := by
  unfold addSocket
  split_ifs <;> rfl

/-- A response leaves the session with the connection it has. -/
@[simp] theorem respond_start (t : Nat) (header body : Option (List UInt8)) (finished : Bool)
    (s : ClientSession) :
    (s.respond t header body finished).2.tUTCStartConnectionTime = s.tUTCStartConnectionTime := by
  unfold respond
  split_ifs <;> simp

/-- **The socket is put in the pool by a finished response that succeeds, and by no other.** -/
theorem respond_registered (t : Nat) (header body : Option (List UInt8)) (finished : Bool)
    (s : ClientSession) :
    (s.respond t header body finished).2.registered =
      if finished ∧ (s.respond t header body finished).1 = .errNoError then s.registered + 1
      else s.registered := by
  unfold respond addSocket
  split_ifs <;> simp_all

theorem sendPart_reliable {s : ClientSession} (h : s.client.Reliable)
    (bytes : Option (List UInt8)) :
    (s.sendPart bytes).1 = true ∧
      (s.sendPart bytes).2.client.received = s.client.received ++ partWritten bytes ∧
      (s.sendPart bytes).2.client.Reliable := by
  match bytes with
  | none => simpa [sendPart, partWritten, visible] using h
  | some bytes =>
    unfold sendPart partWritten
    by_cases hbytes : bytes = []
    · subst hbytes
      simpa [visible] using h
    · dsimp only
      rw [if_neg hbytes]
      exact Client.write_reliable h (visible bytes)

/-- **On a reliable connection both parts are written**; only putting the socket in the pool
can fail. -/
theorem respond_reliable {s : ClientSession} (h : s.client.Reliable)
    (header body : Option (List UInt8)) (finished : Bool) :
    (s.respond s.tUTCStartConnectionTime header body finished).2.client.received
        = s.client.received ++ partWritten header ++ partWritten body ∧
      (s.respond s.tUTCStartConnectionTime header body finished).2.client.Reliable ∧
      ((s.respond s.tUTCStartConnectionTime header body finished).1 = .errNoError ∨
        finished = true) := by
  obtain ⟨hok₁, hrec₁, hrel₁⟩ := sendPart_reliable h header
  obtain ⟨hok₂, hrec₂, hrel₂⟩ := sendPart_reliable hrel₁ body
  have hneg : ¬ s.tUTCStartConnectionTime ≠ s.tUTCStartConnectionTime := fun h => h rfl
  unfold respond
  rw [if_neg hneg, if_neg (by simp [hok₁]), if_neg (by simp [hok₂])]
  cases finished with
  | false =>
    rw [if_neg (by simp)]
    exact ⟨by rw [hrec₂, hrec₁], hrel₂, Or.inl rfl⟩
  | true =>
    rw [if_pos rfl]
    exact ⟨by rw [addSocket_client, hrec₂, hrec₁], by rwa [addSocket_client], Or.inr rfl⟩

end ClientSession

end CatraLibraries
