/-
# What the proxy writes to the client

One call of `chunkRead` is one response on byte strings, `chunkRead_respond`: the header in
front of the first piece, the piece itself, and the flag that the response is finished.  A
piece is copied and written as a C string, so nothing of it is written from its first zero
byte on, while the header announces the full length.

So the client gets the header and the body exactly when the body has no zero byte and there
is a piece at all: for an empty body `chunkRead` is not called, and no header is written.
-/
import CatraLibraries.ConnectionsManager.HTTPProxyThread

namespace CatraLibraries

open Memory CString Substring

/-! ### A list of calls on a buffer -/

namespace Buffer

variable {b : Buffer} {s : List UInt8}

theorem perform_appends (us : List (CStr × ProxyError)) (h : Simulates b (some s)) :
    perform (us.map fun u => (.append u.1, u.2)) b = .error .badAlloc ∨
      ∃ b', perform (us.map fun u => (.append u.1, u.2)) b = .ok (.errNoError, b') ∧
        Simulates b' (some (s ++ us.flatMap (·.1.bytes))) := by
  induction us generalizing b s with
  | nil => exact Or.inr ⟨b, rfl, by simpa using h⟩
  | cons u us ih =>
    rw [List.map_cons, perform]
    rcases append_simulates h.1 h.2 u.1.holds with hbad | ⟨b₁, hb₁, hsim⟩
    · exact Or.inl (by rw [BufferOp.exec, hbad, error_bind])
    · rw [BufferOp.exec, hb₁, ok_bind, List.flatMap_cons, ← List.append_assoc]
      exact ih hsim

/-- The calls of the thread on a buffer: it is set to a string, and others follow. -/
theorem perform_setBuffer (t : CStr) (code : ProxyError) (us : List (CStr × ProxyError))
    (h : Ready b) :
    perform ((.setBuffer t, code) :: us.map fun u => (.append u.1, u.2)) b = .error .badAlloc ∨
      ∃ b', perform ((.setBuffer t, code) :: us.map fun u => (.append u.1, u.2)) b
          = .ok (.errNoError, b') ∧
        Simulates b' (some (t.bytes ++ us.flatMap (·.1.bytes))) := by
  rw [perform]
  rcases setBuffer_ready h t.holds with hbad | ⟨b₁, hb₁, hsim⟩
  · exact Or.inl (by rw [BufferOp.exec, hbad, error_bind])
  · rw [BufferOp.exec, hb₁, ok_bind]
    exact perform_appends us hsim

theorem Simulates.length_eq (h : Simulates b (some s)) : b.length = s.length := by
  rw [h.1.inUse.length_eq_chars, h.1.chars]

end Buffer

namespace HTTPProxyThread

/-- Both buffers of the thread are in order. -/
structure InOrder (th : HTTPProxyThread) : Prop where
  header : th.bHttpGetHeaderResponse.Ready
  body : th.bHttpGetBodyResponse.Ready

/-- The header that the thread writes, announcing a length. -/
def headerText (n : Int) : List UInt8 := headerStart.bytes ++ (number n).bytes ++ headerEnd.bytes

theorem headerText_nulFree (n : Int) : 0 ∉ headerText n := by
  unfold headerText
  rw [List.mem_append, List.mem_append, not_or, not_or]
  exact ⟨⟨headerStart.nulFree, (number n).nulFree⟩, headerEnd.nulFree⟩

/-- A number of 64 bits has at most 20 digits. -/
theorem length_number {n : Int} (hn : n.natAbs < 10 ^ 20) : (number n).bytes.length ≤ 21 := by
  unfold number
  dsimp only
  rw [List.length_map]
  exact Stdio.length_printLld_le hn

theorem length_headerText {n : Int} (hn : n.natAbs < 10 ^ 20) :
    (headerText n).length < 2 ^ 32 := by
  have hnumber := length_number hn
  have hstart : headerStart.bytes.length = 72 := by decide
  have hend : headerEnd.bytes.length = 4 := by decide
  unfold headerText
  rw [List.length_append, List.length_append]
  omega

/-- The code of the thread for a code of the session. -/
def responseCode (err : SessionError) : ProxyError :=
  if err ≠ .errNoError then .sessionWriteResponseFailed else .errNoError

theorem responseCode_ok : responseCode .errNoError = .errNoError := rfl

theorem responseCode_ne {err : SessionError} (h : err ≠ .errNoError) :
    responseCode err ≠ .errNoError := by
  unfold responseCode
  rw [if_pos h]
  decide

/-- **The end of a call** is a response with the bytes of the buffers. -/
theorem writeResponse_eq {th : HTTPProxyThread} (hth : th.InOrder) {pbHeader : Option Buffer}
    {header : Option (List UInt8)} {body : List UInt8}
    (hheader : ClientSession.Stored pbHeader header)
    (hnul : ∀ h ∈ header, 0 ∉ h ∧ h.length < 2 ^ 32)
    (hbody : Buffer.Contents th.bHttpGetBodyResponse body) (finished : Bool) :
    th.writeResponse pbHeader finished = .error .badAlloc ∨
      ∃ header' body',
        th.writeResponse pbHeader finished
          = .ok (responseCode (th.psSession.respond th.tUTCStartConnectionTime header (some body)
              finished).1,
            { th with
              psSession := (th.psSession.respond th.tUTCStartConnectionTime header (some body)
                finished).2
              bHttpGetHeaderResponse := header'
              bHttpGetBodyResponse := body' }) ∧ header'.Ready ∧ body'.Ready := by
  unfold writeResponse
  have hstored : ClientSession.Stored (some th.bHttpGetBodyResponse) (some body) := hbody
  rcases ClientSession.writeResponse_respond th.tUTCStartConnectionTime hheader hstored hnul
      finished th.psSession with hbad | ⟨h', b', hrun, hh', hb'⟩
  · exact Or.inl (by rw [hbad, error_bind])
  · refine Or.inr ⟨h'.getD th.bHttpGetHeaderResponse, b'.getD th.bHttpGetBodyResponse, ?_, ?_, ?_⟩
    · rw [hrun, ok_bind]
      rfl
    · cases h' with
      | none => exact hth.header
      | some h' => exact hh' h' rfl
    · cases b' with
      | none => exact hth.body
      | some b' => exact hb' b' rfl

/-- The total after a piece. -/
def totalAfter (ulChunkReadIndex : Nat) (chunk : List UInt8) (th : HTTPProxyThread) : Nat :=
  if ulChunkReadIndex = 0 then chunk.length % 2 ^ 64
  else (th.ullBodyDataSizeSentToClient + chunk.length) % 2 ^ 64

/-- The response that a piece is turned into. -/
def chunkResponse (ulChunkReadIndex : Nat) (total : Int64) (chunk : List UInt8)
    (th : HTTPProxyThread) : SessionError × ClientSession :=
  th.psSession.respond th.tUTCStartConnectionTime
    (if ulChunkReadIndex = 0 then some (headerText total.toInt) else none)
    (some (Buffer.padded chunk)) (isResponseFinished (th.totalAfter ulChunkReadIndex chunk) total)

/-- The thread after a call has turned a piece into a response. -/
structure AfterChunk (ulChunkReadIndex : Nat) (total : Int64) (chunk : List UInt8)
    (th th' : HTTPProxyThread) : Prop where
  session : th'.psSession = (th.chunkResponse ulChunkReadIndex total chunk).2
  start : th'.tUTCStartConnectionTime = th.tUTCStartConnectionTime
  total : th'.ullBodyDataSizeSentToClient = th.totalAfter ulChunkReadIndex chunk
  header : ulChunkReadIndex = 0 ∨ th.ulHeaderDataSizeSentToClient ≠ 0 →
    th'.ulHeaderDataSizeSentToClient ≠ 0
  inOrder : th'.InOrder

theorem natAbs_toInt_lt (total : Int64) : total.toInt.natAbs < 10 ^ 20 := by
  have hlow := total.le_toInt
  have hhigh := total.toInt_lt
  omega

/-- The response at the end of a call, for a thread `th₀` that differs from `th` in what the call
has set before. -/
theorem afterChunk {th th₀ : HTTPProxyThread} {index : Nat} {total : Int64} {chunk : List UInt8}
    {pbHeader : Option Buffer} (hsession : th₀.psSession = th.psSession)
    (hstart : th₀.tUTCStartConnectionTime = th.tUTCStartConnectionTime)
    (htotal : th₀.ullBodyDataSizeSentToClient = th.totalAfter index chunk)
    (hsize : index = 0 ∨ th.ulHeaderDataSizeSentToClient ≠ 0 →
      th₀.ulHeaderDataSizeSentToClient ≠ 0)
    (hth₀ : th₀.InOrder)
    (hheader : ClientSession.Stored pbHeader
      (if index = 0 then some (headerText total.toInt) else none))
    (hbody : Buffer.Contents th₀.bHttpGetBodyResponse (Buffer.padded chunk)) :
    th₀.writeResponse pbHeader (isResponseFinished (th.totalAfter index chunk) total)
        = .error .badAlloc ∨
      ∃ th', th₀.writeResponse pbHeader (isResponseFinished (th.totalAfter index chunk) total)
          = .ok (responseCode (th.chunkResponse index total chunk).1, th') ∧
        AfterChunk index total chunk th th' := by
  have hnul : ∀ h ∈ (if index = 0 then some (headerText total.toInt) else none),
      0 ∉ h ∧ h.length < 2 ^ 32 := by
    intro h hh
    split_ifs at hh
    case neg => exact absurd hh (by simp)
    obtain rfl := Option.mem_some_iff.mp hh
    exact ⟨headerText_nulFree _, length_headerText (natAbs_toInt_lt total)⟩
  rcases writeResponse_eq hth₀ hheader hnul hbody
      (isResponseFinished (th.totalAfter index chunk) total) with hbad | ⟨h', b', hrun, hh', hb'⟩
  · exact Or.inl hbad
  · rw [hsession, hstart] at hrun
    exact Or.inr ⟨_, hrun, rfl, rfl, htotal, hsize, hh', hb'⟩

/-- **`chunkRead` is one response.** -/
theorem chunkRead_respond {th : HTTPProxyThread} (hth : th.InOrder) (index : Nat) (total : Int64)
    (chunk : List UInt8) :
    th.chunkRead index total chunk = .error .badAlloc ∨
      ∃ th', th.chunkRead index total chunk
          = .ok (responseCode (th.chunkResponse index total chunk).1, th') ∧
        AfterChunk index total chunk th th' := by
  unfold chunkRead
  by_cases hindex : index = 0
  · have hstart := Buffer.perform_setBuffer headerStart .toolsBufferInitFailed
      [(number total.toInt, .toolsBufferAppendFailed)] hth.header
    rw [List.map_cons, List.map_nil] at hstart
    rw [if_pos hindex]
    rcases hstart with hbad | ⟨h₁, hh₁, hsim₁⟩
    · exact Or.inl (by rw [hbad, error_bind])
    have hend := Buffer.perform_appends [(headerEnd, .toolsBufferAppendFailed)] hsim₁
    rw [List.map_cons, List.map_nil] at hend
    rw [hh₁, ok_bind]
    dsimp only
    rw [if_neg (by simp)]
    rcases hend with hbad | ⟨h₂, hh₂, hsim₂⟩
    · exact Or.inl (by rw [hbad, error_bind])
    rw [hh₂, ok_bind]
    dsimp only
    rw [if_neg (by simp)]
    rcases Buffer.setBuffer_bytes hth.body chunk with hbad | ⟨b₁, hb₁, hc₁⟩
    · exact Or.inl (by rw [hbad, error_bind])
    rw [hb₁, ok_bind]
    dsimp only
    rw [if_neg (by simp), show chunk.length % 2 ^ 64 = th.totalAfter index chunk by
      rw [totalAfter, if_pos hindex]]
    refine afterChunk rfl rfl rfl (fun _ => ?_) ⟨hsim₂.1.ready, hc₁.ready⟩ ?_ hc₁
    · show h₁.length ≠ 0
      rw [hsim₁.length_eq, List.length_append]
      have : headerStart.bytes.length = 72 := by decide
      omega
    · rw [if_pos hindex]
      simpa [ClientSession.Stored, headerText] using hsim₂.1
  · rw [if_neg hindex]
    rcases Buffer.setBuffer_bytes hth.body chunk with hbad | ⟨b₁, hb₁, hc₁⟩
    · exact Or.inl (by rw [hbad, error_bind])
    rw [hb₁, ok_bind]
    dsimp only
    rw [if_neg (by simp), show (th.ullBodyDataSizeSentToClient + chunk.length) % 2 ^ 64
      = th.totalAfter index chunk by rw [totalAfter, if_neg hindex]]
    refine afterChunk rfl rfl rfl (fun h => ?_) ⟨hth.header, hc₁.ready⟩ ?_ hc₁
    · exact h.resolve_left hindex
    · rw [if_neg hindex]
      trivial

/-! ### The pieces of a body -/

/-- The calls for successive pieces, until one fails; the loop of `readHttpHeaderAndBody` makes
no others. -/
def chunkReads (total : Int64) :
    Nat → List (List UInt8) → HTTPProxyThread → Except Fault (ProxyError × HTTPProxyThread)
  | _, [], th => .ok (.errNoError, th)
  | index, chunk :: chunks, th => do
    let (err, th) ← th.chunkRead index total chunk
    if err ≠ .errNoError then return (err, th) else chunkReads total (index + 1) chunks th

/-- What the client gets of a list of pieces. -/
def written (total : Int64) (index : Nat) (chunks : List (List UInt8)) : List UInt8 :=
  (if index = 0 ∧ chunks ≠ [] then headerText total.toInt else []) ++ chunks.flatMap visible

theorem written_succ (total : Int64) (index : Nat) (chunks : List (List UInt8)) :
    written total (index + 1) chunks = chunks.flatMap visible := by
  simp [written]

theorem partWritten_padded (chunk : List UInt8) :
    ClientSession.partWritten (some (Buffer.padded chunk)) = visible chunk :=
  Buffer.visible_padded chunk

theorem partWritten_header (index : Nat) (total : Int64) :
    ClientSession.partWritten (if index = 0 then some (headerText total.toInt) else none)
      = if index = 0 then headerText total.toInt else [] := by
  split_ifs
  · exact visible_eq_self (headerText_nulFree _)
  · rfl

theorem toNat_total {total : Int64} {n : Nat} (h : total.toInt = n) :
    total.toUInt64.toNat = n ∧ n < 2 ^ 63 := by
  have hlt := total.toInt_lt
  have hnat : total.toUInt64.toNat = total.toInt.toNat := by
    rw [Int64.toNat_toUInt64_of_le]
    · rfl
    · rw [Int64.le_iff_toInt_le]
      simp [h]
  refine ⟨by rw [hnat, h, Int.toNat_natCast], by omega⟩

/-- Where the announced length has been reached, the pieces that are left are empty. -/
theorem flatMap_visible_of_length {chunks : List (List UInt8)}
    (h : chunks.flatten.length = 0) : chunks.flatMap visible = [] := by
  rw [List.flatMap_eq_nil_iff]
  intro chunk hmem
  have hnil : chunk = [] := by
    have := List.flatten_eq_nil_iff.mp (List.length_eq_zero_iff.mp h)
    exact this chunk hmem
  rw [hnil]
  rfl

/-- **What a reliable client gets of the pieces**, when the announced length is what they
have. -/
theorem chunkReads_written (chunks : List (List UInt8)) {th : HTTPProxyThread} (hth : th.InOrder)
    (hreliable : th.psSession.client.Reliable)
    (hopen : th.tUTCStartConnectionTime = th.psSession.tUTCStartConnectionTime) (index : Nat)
    {total : Int64} {n : Nat} (htotal : total.toInt = n)
    (hlen : (if index = 0 then 0 else th.ullBodyDataSizeSentToClient) + chunks.flatten.length = n) :
    th.chunkReads total index chunks = .error .badAlloc ∨
      ∃ err th', th.chunkReads total index chunks = .ok (err, th') ∧
        th'.psSession.client.received
          = th.psSession.client.received ++ written total index chunks := by
  induction chunks generalizing th index with
  | nil => exact Or.inr ⟨_, _, rfl, by simp [written]⟩
  | cons chunk chunks ih =>
    obtain ⟨hnat, hn⟩ := toNat_total htotal
    rw [List.flatten_cons, List.length_append] at hlen
    have hafter : th.totalAfter index chunk
        = (if index = 0 then 0 else th.ullBodyDataSizeSentToClient) + chunk.length := by
      unfold totalAfter
      split_ifs at hlen ⊢ <;> omega
    have hwritten : written total index (chunk :: chunks)
        = (if index = 0 then headerText total.toInt else []) ++ visible chunk
          ++ written total (index + 1) chunks := by
      simp [written]
    rw [chunkReads]
    rcases chunkRead_respond hth index total chunk with hbad | ⟨th₁, hrun, hafterChunk⟩
    · exact Or.inl (by rw [hbad, error_bind])
    rw [hrun, ok_bind]
    dsimp only
    have hsession := hafterChunk.session
    unfold chunkResponse at hsession ⊢
    rw [hopen] at hsession ⊢
    obtain ⟨hrec, hrel, herr⟩ := ClientSession.respond_reliable hreliable
      (if index = 0 then some (headerText total.toInt) else none) (some (Buffer.padded chunk))
      (isResponseFinished (th.totalAfter index chunk) total)
    rw [← hsession, partWritten_padded, partWritten_header] at hrec
    rw [← hsession] at hrel
    by_cases hok : (th.psSession.respond th.psSession.tUTCStartConnectionTime
        (if index = 0 then some (headerText total.toInt) else none) (some (Buffer.padded chunk))
        (isResponseFinished (th.totalAfter index chunk) total)).1 = .errNoError
    · rw [hok, responseCode_ok, if_neg (by simp)]
      have hopen₁ : th₁.tUTCStartConnectionTime = th₁.psSession.tUTCStartConnectionTime := by
        rw [hafterChunk.start, hsession, ClientSession.respond_start, hopen]
      rcases ih hafterChunk.inOrder hrel hopen₁ (index + 1)
          (by rw [if_neg (Nat.succ_ne_zero _), hafterChunk.total, hafter]; omega) with
        hbad | ⟨err, th', hrun', hrec'⟩
      · exact Or.inl hbad
      · refine Or.inr ⟨err, th', hrun', ?_⟩
        rw [hrec', hrec, hwritten]
        simp only [List.append_assoc]
    · -- the response was finished, and what is left is empty
      rw [if_pos (responseCode_ne hok)]
      have hfinished := herr.resolve_left hok
      unfold isResponseFinished at hfinished
      rw [hnat, hafter, decide_eq_true_eq] at hfinished
      refine Or.inr ⟨_, _, rfl, ?_⟩
      rw [hrec, hwritten, written_succ, flatMap_visible_of_length (by omega)]
      simp

/-- Bytes are written as they are exactly when none is zero. -/
theorem flatMap_visible_eq_flatten {chunks : List (List UInt8)} :
    chunks.flatMap visible = chunks.flatten ↔ 0 ∉ chunks.flatten := by
  constructor
  · intro h hzero
    rw [← h] at hzero
    obtain ⟨chunk, -, hmem⟩ := List.mem_flatMap.mp hzero
    exact zero_notMem_visible chunk hmem
  · intro h
    rw [← List.flatMap_id]
    refine List.flatMap_congr fun chunk hmem => visible_eq_self fun hzero => ?_
    exact h (List.mem_flatten_of_mem hmem hzero)

/-- **The client gets one header and the body exactly when the body has no zero byte and comes
in at least one piece.**  The web server has announced the `n` bytes of the body; its pieces
may be any, and every write works. -/
theorem chunkReads_deliver_iff {th : HTTPProxyThread} (hth : th.InOrder)
    (hreliable : th.psSession.client.Reliable)
    (hopen : th.tUTCStartConnectionTime = th.psSession.tUTCStartConnectionTime)
    (body : List UInt8) (chunks : List (List UInt8)) (hsplit : chunks.flatten = body)
    (total : Int64) (htotal : total.toInt = body.length) :
    th.chunkReads total 0 chunks = .error .badAlloc ∨
      ∃ err th', th.chunkReads total 0 chunks = .ok (err, th') ∧
        (th'.psSession.client.received
            = th.psSession.client.received ++ headerText body.length ++ body ↔
          chunks ≠ [] ∧ 0 ∉ body) := by
  subst hsplit
  rcases chunkReads_written chunks hth hreliable hopen 0 htotal (by simp) with
    hbad | ⟨err, th', hrun, hrec⟩
  · exact Or.inl hbad
  refine Or.inr ⟨err, th', hrun, ?_⟩
  rw [hrec, List.append_assoc, List.append_cancel_left_eq, written, htotal,
    ← flatMap_visible_eq_flatten]
  by_cases hchunks : chunks = []
  · subst hchunks
    have : headerText 0 ≠ [] := by decide
    simpa using this
  · rw [if_pos ⟨rfl, hchunks⟩, List.append_cancel_left_eq]
    simp [hchunks]

/-- A client that takes one byte at a time. -/
def slowClient : Client := ⟨[], fun _ => some true, 0, fun _ => some 1, 0⟩

/-- A buffer after `init ("")`. -/
def emptyBuffer : Buffer := ⟨.initialized, true, 1, 2, 0, [some 0, none]⟩

theorem emptyBuffer_ready : emptyBuffer.Ready :=
  ⟨rfl, rfl, [], by decide, by decide, rfl, by decide, by decide, [none], rfl⟩

/-- A thread as `init` leaves it, for the connection opened at second 1. -/
def newThread : HTTPProxyThread := ⟨⟨1, slowClient, fun _ => true, 0, 0⟩, 1, 0, 0, emptyBuffer,
  emptyBuffer⟩

theorem newThread_inOrder : newThread.InOrder := ⟨emptyBuffer_ready, emptyBuffer_ready⟩

theorem slowClient_reliable : slowClient.Reliable := ⟨fun _ => rfl, fun _ => by simp [slowClient]⟩

/-- A body of two pieces. -/
theorem chunkReads_deliver_text :
    ∃ err th', newThread.chunkReads 2 0 [[72], [105]] = .ok (err, th') ∧
      th'.psSession.client.received = headerText 2 ++ [72, 105] := by
  have hok : (newThread.chunkReads 2 0 [[72], [105]]).isOk := by decide +kernel
  rcases chunkReads_deliver_iff newThread_inOrder slowClient_reliable rfl [72, 105] [[72], [105]]
      rfl 2 rfl with hbad | ⟨err, th', hrun, hiff⟩
  · rw [hbad] at hok
    exact absurd hok (by decide)
  · exact ⟨err, th', hrun, hiff.mpr ⟨by decide, by decide⟩⟩

/-- A body with a zero byte, in one piece: the header announces three bytes, one comes. -/
theorem chunkReads_zero_byte :
    ∃ err th', newThread.chunkReads 3 0 [[65, 0, 66]] = .ok (err, th') ∧
      th'.psSession.client.received = headerText 3 ++ [65] ∧
      th'.psSession.client.received ≠ headerText 3 ++ [65, 0, 66] := by
  have heval : (newThread.chunkReads 3 0 [[65, 0, 66]]).map (·.2.psSession.client.received)
      = .ok (headerText 3 ++ [65]) := by decide +kernel
  cases hrun : newThread.chunkReads 3 0 [[65, 0, 66]] with
  | error e =>
    rw [hrun] at heval
    exact absurd heval (by rintro ⟨⟩)
  | ok r =>
    rw [hrun] at heval
    have hrec : r.2.psSession.client.received = headerText 3 ++ [65] := Except.ok.inj heval
    refine ⟨r.1, r.2, rfl, hrec, ?_⟩
    rw [hrec, ne_eq, List.append_cancel_left_eq]
    decide

end HTTPProxyThread

end CatraLibraries
