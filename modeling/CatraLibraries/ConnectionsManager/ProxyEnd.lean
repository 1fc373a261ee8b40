/-
# Where the proxy thread leaves the session

While the thread works, the socket is in no pool and the session in no free set.  The thread
never closes the session, so the session comes back only through a finished response, which
puts the socket in the sockets pool.  There are two places for one: the piece with which the
announced length is reached, and the report of an error that came before the first piece.

`run_notLost_iff` says for every exchange whether one of them is reached.  A reply without
length, with length zero, cut off after the first piece, or ended by the end of file, and
every failed write leave the session lost.
-/
import CatraLibraries.ConnectionsManager.ProxyReply

namespace CatraLibraries

open Memory CString Substring

/-! ### Responses in a row -/

/-- The arguments of a response. -/
structure Response where
  header : Option (List UInt8)
  body : List UInt8
  finished : Bool
  deriving DecidableEq

namespace ClientSession

/-- One response. -/
def answer (t : Nat) (r : Response) (s : ClientSession) : SessionError × ClientSession :=
  s.respond t r.header (some r.body) r.finished

/-- The responses that succeed, when they are written one after the other up to the first
failure. -/
def succeeding (t : Nat) : List Response → ClientSession → List Response
  | [], _ => []
  | r :: rs, s =>
    if (s.answer t r).1 = .errNoError then r :: succeeding t rs (s.answer t r).2 else []

theorem succeeding_prefix (t : Nat) (rs : List Response) (s : ClientSession) :
    s.succeeding t rs <+: rs := by
  induction rs generalizing s with
  | nil => exact List.prefix_refl _
  | cons r rs ih =>
    unfold succeeding
    split_ifs
    · exact List.cons_prefix_cons.mpr ⟨rfl, ih _⟩
    · exact List.nil_prefix

theorem answer_registered (t : Nat) (r : Response) (s : ClientSession) :
    (s.answer t r).2.registered =
      s.registered + (s.succeeding t [r]).countP (·.finished) := by
  unfold answer
  rw [respond_registered]
  unfold succeeding answer
  cases hfinished : r.finished with
  | false => split_ifs <;> simp_all [succeeding]
  | true => split_ifs <;> simp_all [succeeding]

end ClientSession

namespace HTTPProxyThread

variable {th : HTTPProxyThread}

/-- The responses that pieces are turned into, after `total` bytes. -/
def responses (llTotalContentLength : Int64) : Nat → Nat → List (List UInt8) → List Response
  | _, _, [] => []
  | index, sofar, chunk :: chunks =>
    let total := (sofar + chunk.length) % 2 ^ 64
    ⟨if index = 0 then some (headerText llTotalContentLength.toInt) else none,
      Buffer.padded chunk, isResponseFinished total llTotalContentLength⟩ ::
      responses llTotalContentLength (index + 1) total chunks

/-- **What the pieces do to the session**: the socket is registered once for each finished
response among those that succeed. -/
theorem chunkReads_registered (total : Int64) (chunks : List (List UInt8))
    {th : HTTPProxyThread} (hth : th.InOrder) (index sofar : Nat)
    (hsofar : (if index = 0 then 0 else th.ullBodyDataSizeSentToClient) = sofar) :
    th.chunkReads total index chunks = .error .badAlloc ∨
      ∃ err th', th.chunkReads total index chunks = .ok (err, th') ∧ th'.InOrder ∧
        th'.psSession.registered = th.psSession.registered +
          (th.psSession.succeeding th.tUTCStartConnectionTime
            (responses total index sofar chunks)).countP (·.finished) ∧
        th'.psSession.tUTCStartConnectionTime = th.psSession.tUTCStartConnectionTime ∧
        th'.tUTCStartConnectionTime = th.tUTCStartConnectionTime ∧
        (chunks ≠ [] ∧ (index = 0 ∨ th.ulHeaderDataSizeSentToClient ≠ 0) →
          th'.ulHeaderDataSizeSentToClient ≠ 0) := by
  induction chunks generalizing th index sofar with
  | nil =>
    refine Or.inr ⟨_, _, rfl, hth, ?_, rfl, rfl, fun h => absurd rfl h.1⟩
    simp [responses, ClientSession.succeeding]
  | cons chunk chunks ih =>
    have hafter : th.totalAfter index chunk = (sofar + chunk.length) % 2 ^ 64 := by
      unfold totalAfter
      rw [← hsofar]
      split_ifs <;> simp
    rw [chunkReads]
    rcases chunkRead_respond hth index total chunk with hbad | ⟨th₁, hrun, hafterChunk⟩
    · exact Or.inl (by rw [hbad, error_bind])
    -- the response, and the list that starts with it
    generalize hr : (⟨if index = 0 then some (headerText total.toInt) else none,
      Buffer.padded chunk, isResponseFinished ((sofar + chunk.length) % 2 ^ 64) total⟩ : Response)
        = r
    have hlist : responses total index sofar (chunk :: chunks)
        = r :: responses total (index + 1) ((sofar + chunk.length) % 2 ^ 64) chunks := by
      rw [← hr]
      rfl
    have hanswer : th.chunkResponse index total chunk
        = th.psSession.answer th.tUTCStartConnectionTime r := by
      rw [← hr, chunkResponse, hafter]
      rfl
    have hsession := hafterChunk.session
    have hstart : th₁.psSession.tUTCStartConnectionTime = th.psSession.tUTCStartConnectionTime := by
      rw [hsession]
      exact ClientSession.respond_start ..
    have hregistered := ClientSession.answer_registered th.tUTCStartConnectionTime r th.psSession
    rw [hanswer] at hrun hsession
    rw [← hsession] at hregistered
    rw [hrun, ok_bind, hlist]
    dsimp only
    unfold ClientSession.succeeding at hregistered ⊢
    by_cases hok : (th.psSession.answer th.tUTCStartConnectionTime r).1 = .errNoError
    · rw [if_pos hok] at hregistered ⊢
      rw [hok, responseCode_ok, if_neg (by simp)]
      rcases ih hafterChunk.inOrder (index + 1) ((sofar + chunk.length) % 2 ^ 64)
          (by rw [if_neg (Nat.succ_ne_zero _), hafterChunk.total, hafter]) with
        hbad | ⟨err, th', hrun', hth', hreg', hstart', htime', hsize'⟩
      · exact Or.inl hbad
      refine Or.inr ⟨err, th', hrun', hth', ?_, hstart'.trans hstart,
        htime'.trans hafterChunk.start, fun h => ?_⟩
      · rw [hreg', hregistered, hafterChunk.start, ← hsession, ClientSession.succeeding,
          List.countP_cons, List.countP_cons, List.countP_nil]
        omega
      · have hsize₁ := hafterChunk.header h.2
        by_cases hchunks : chunks = []
        · subst hchunks
          obtain ⟨-, rfl⟩ := Prod.mk.inj (Except.ok.inj hrun')
          exact hsize₁
        · exact hsize' ⟨hchunks, Or.inr hsize₁⟩
    · rw [if_neg hok] at hregistered ⊢
      rw [if_pos (responseCode_ne hok)]
      exact Or.inr ⟨_, _, rfl, hafterChunk.inOrder, hregistered, hstart, hafterChunk.start,
        fun h => hafterChunk.header h.2⟩

/-! ### The pieces of an exchange -/

/-- The pieces in which the body comes, and the error that ends them, if the announced length is
not reached first. -/
def pieces (contentLength : Option UInt64) :
    Nat → Nat → Socket → List (List UInt8) × Option SocketError
  | 0, _, _ => ([], none)
  | fuel + 1, ullCurrentBodyLength, sock =>
    match bytesToRead contentLength ullCurrentBodyLength with
    | none => ([], none)
    | some ulBufferLength =>
      match sock.read ulBufferLength true with
      | .error errRead => ([], some errRead)
      | .ok (block, sock) =>
        let rest := pieces contentLength fuel ((ullCurrentBodyLength + block.length) % 2 ^ 64) sock
        (block :: rest.1, rest.2)

/-- The code that the reading of the pieces ends with. -/
def endCode (ending : Option SocketError) : HttpGetError :=
  match ending with
  | none => .errNoError
  | some errRead => readError errRead

/-- A read takes the first bytes that are there, at least one. -/
theorem read_eq_ok {sock sock' : Socket} {n : Nat} {block : List UInt8}
    (h : sock.read n true = .ok (block, sock')) (hn : 0 < n) :
    block ≠ [] ∧ block.length ≤ n ∧ sock.unread = block ++ sock'.unread ∧
      sock'.endError = sock.endError := by
  unfold Socket.read at h
  by_cases hnil : sock.unread = []
  · rw [if_pos hnil] at h
    cases h
  rw [if_neg hnil] at h
  obtain ⟨rfl, rfl⟩ := Prod.mk.inj (Except.ok.inj h)
  have hpos := List.length_pos_iff.mpr hnil
  have hlen : sock.readLength n ≤ sock.unread.length ∧ 0 < sock.readLength n ∧
      sock.readLength n ≤ n := by
    unfold Socket.readLength
    omega
  refine ⟨?_, ?_, ?_, rfl⟩
  · apply List.ne_nil_of_length_pos
    rw [List.length_take]
    omega
  · rw [List.length_take]
    omega
  · simp

theorem read_eq_error {sock : Socket} {n : Nat} {e : SocketError}
    (h : sock.read n true = .error e) : sock.unread = [] ∧ e = sock.endError := by
  unfold Socket.read at h
  by_cases hnil : sock.unread = []
  · rw [if_pos hnil] at h
    exact ⟨hnil, (Except.error.inj h).symm⟩
  · rw [if_neg hnil] at h
    cases h

theorem bytesToRead_pos {contentLength : Option UInt64} {cur n : Nat}
    (h : bytesToRead contentLength cur = some n) : 0 < n := by
  unfold bytesToRead at h
  cases contentLength with
  | none =>
    obtain rfl := Option.some.inj h
    decide
  | some k =>
    dsimp only at h
    split_ifs at h with hlt
    obtain rfl := Option.some.inj h
    have hsize : 0 < bodyBufferSize (some k) := by
      unfold bodyBufferSize maxHttpBodyBufferSize
      dsimp only
      split_ifs <;> omega
    omega

/-- **The loop over the body** makes a call for each piece, until one fails. -/
theorem bodyLoop_eq (contentLength : Option UInt64) (fuel cur index : Nat) (sock : Socket)
    (th : HTTPProxyThread) (hfuel : sock.unread.length + 1 < fuel) :
    th.bodyLoop contentLength fuel cur index sock =
      (do
        let (err, th) ← th.chunkReads (totalContentLength contentLength) index
          (pieces contentLength fuel cur sock).1
        return (if err ≠ .errNoError then .chunkReadFailed
          else endCode (pieces contentLength fuel cur sock).2, th)) := by
  induction fuel generalizing cur index sock th with
  | zero => omega
  | succ fuel ih =>
    unfold bodyLoop pieces
    cases hask : bytesToRead contentLength cur with
    | none => rfl
    | some n =>
      dsimp only
      cases hread : sock.read n true with
      | error e => rfl
      | ok r =>
        obtain ⟨block, sock'⟩ := r
        obtain ⟨hne, -, hunread, -⟩ := read_eq_ok hread (bytesToRead_pos hask)
        have hlen := congrArg List.length hunread
        have hpos := List.length_pos_iff.mpr hne
        rw [List.length_append] at hlen
        dsimp only
        rw [chunkReads]
        cases hchunk : th.chunkRead index (totalContentLength contentLength) block with
        | error e => rfl
        | ok r =>
          obtain ⟨err, th₁⟩ := r
          rw [ok_bind, ok_bind]
          dsimp only
          by_cases herr : err ≠ .errNoError
          · rw [if_pos herr, if_pos herr]
            show _ = (Except.ok _ >>= _)
            rw [ok_bind]
            simp [herr]
          · rw [if_neg herr, if_neg herr, ih _ _ _ _ (by omega)]

/-- The total after each piece. -/
def totals : Nat → List (List UInt8) → List Nat
  | _, [] => []
  | sofar, chunk :: chunks =>
    (sofar + chunk.length) % 2 ^ 64 :: totals ((sofar + chunk.length) % 2 ^ 64) chunks

theorem responses_finished (total : Int64) (index sofar : Nat) (chunks : List (List UInt8)) :
    (responses total index sofar chunks).map (·.finished)
      = (totals sofar chunks).map fun n => isResponseFinished n total := by
  induction chunks generalizing index sofar with
  | nil => rfl
  | cons chunk chunks ih => simp [responses, totals, ih]

/-- The flags of the first responses, counted by the totals. -/
theorem countP_take_responses (total : Int64) (sofar : Nat) (chunks : List (List UInt8)) (k : Nat) :
    ((responses total 0 sofar chunks).take k).countP (·.finished)
      = ((totals sofar chunks).take k).countP fun n => isResponseFinished n total := by
  have hmap := congrArg (List.take k) (responses_finished total 0 sofar chunks)
  rw [← List.map_take, ← List.map_take] at hmap
  have hcount := congrArg (List.countP id) hmap
  rwa [List.countP_map, List.countP_map] at hcount

/-- The pieces of a body with an announced length are not empty, and have the bytes that are
both announced and there. -/
theorem pieces_some (n : UInt64) (fuel cur : Nat) (sock : Socket)
    (hfuel : sock.unread.length + 1 < fuel) (hcur : cur ≤ n.toNat) :
    (∀ chunk ∈ (pieces (some n) fuel cur sock).1, chunk ≠ []) ∧
      cur + (pieces (some n) fuel cur sock).1.flatten.length
        = min n.toNat (cur + sock.unread.length) := by
  induction fuel generalizing cur sock with
  | zero => omega
  | succ fuel ih =>
    have hn := n.toNat_lt
    unfold pieces
    cases hask : bytesToRead (some n) cur with
    | none =>
      unfold bytesToRead at hask
      dsimp only at hask ⊢
      split_ifs at hask
      rw [List.flatten_nil, List.length_nil]
      exact ⟨by simp, by omega⟩
    | some ask =>
      have hle : ask ≤ n.toNat - cur := by
        unfold bytesToRead at hask
        dsimp only at hask
        split_ifs at hask
        obtain rfl := Option.some.inj hask
        omega
      dsimp only
      cases hread : sock.read ask true with
      | error e =>
        obtain ⟨hnil, -⟩ := read_eq_error hread
        dsimp only
        rw [hnil, List.flatten_nil, List.length_nil]
        exact ⟨by simp, by omega⟩
      | ok r =>
        obtain ⟨block, sock'⟩ := r
        obtain ⟨hne, hblock, hunread, -⟩ := read_eq_ok hread (bytesToRead_pos hask)
        have hlen := congrArg List.length hunread
        have hpos := List.length_pos_iff.mpr hne
        rw [List.length_append] at hlen
        have hmod : (cur + block.length) % 2 ^ 64 = cur + block.length :=
          Nat.mod_eq_of_lt (by omega)
        dsimp only
        rw [hmod]
        obtain ⟨hall, hflat⟩ := ih (cur + block.length) sock' (by omega) (by omega)
        rw [List.flatten_cons, List.length_append]
        exact ⟨List.forall_mem_cons.mpr ⟨hne, hall⟩, by omega⟩

/-- **The announced length is reached by the last piece or by none.** -/
theorem countP_totals {n sofar : Nat} {chunks : List (List UInt8)} (k : Nat) (hn : n < 2 ^ 64)
    (hne : ∀ chunk ∈ chunks, chunk ≠ []) (hlen : sofar + chunks.flatten.length ≤ n)
    (hchunks : chunks ≠ []) :
    ((totals sofar chunks).take k).countP (fun m => decide (m ≥ n))
      = if chunks.length ≤ k ∧ sofar + chunks.flatten.length = n then 1 else 0 := by
  induction chunks generalizing sofar k with
  | nil => exact absurd rfl hchunks
  | cons chunk chunks ih =>
    rw [List.flatten_cons, List.length_append] at hlen ⊢
    have hmod : (sofar + chunk.length) % 2 ^ 64 = sofar + chunk.length :=
      Nat.mod_eq_of_lt (by omega)
    rw [totals, hmod]
    cases k with
    | zero => simp
    | succ k =>
      rw [List.take_succ_cons, List.countP_cons]
      by_cases hrest : chunks = []
      · subst hrest
        have hiff : n ≤ sofar + chunk.length ↔ sofar + chunk.length = n := by
          rw [List.flatten_nil, List.length_nil] at hlen
          omega
        simp [totals, hiff]
      · -- what follows has bytes, so the length is not reached yet
        have hpos : 0 < chunks.flatten.length := by
          rw [List.length_pos_iff]
          intro hnil
          obtain ⟨c, hc⟩ := List.exists_mem_of_ne_nil _ hrest
          exact hne c (List.mem_cons_of_mem _ hc) (List.flatten_eq_nil_iff.mp hnil c hc)
        rw [ih k (fun c hc => hne c (List.mem_cons_of_mem _ hc)) (by omega) hrest,
          if_neg (c := _ = true) (by simp; omega)]
        simp [Nat.add_assoc]

/-! ### The report of an early error -/

/-- What `closingHttpGet` tells the client of an error. -/
def failureReport (text : CStr) : Response :=
  let body := failureStart.bytes ++ text.bytes ++ failureEnd.bytes
  ⟨some (headerText body.length), body, true⟩

/-- The errors that `closingHttpGet` reports. -/
def Reported (perr : HttpGetError) : Prop := perr ≠ .errNoError ∧ perr ≠ .readEofReached

instance (perr : HttpGetError) : Decidable (Reported perr) :=
  inferInstanceAs (Decidable (_ ∧ _))

theorem closingHttpGet_skip {perr : HttpGetError} (text : HttpGetError → CStr)
    (h : Reported perr → th.ulHeaderDataSizeSentToClient ≠ 0) :
    th.closingHttpGet perr text = .ok (.errNoError, th) := by
  refine if_neg ?_
  rintro ⟨hne, heof, hsize⟩
  exact h ⟨hne, heof⟩ hsize

/-- **An error before the first header** becomes one finished response. -/
theorem closingHttpGet_report (hth : th.InOrder) {perr : HttpGetError}
    (text : HttpGetError → CStr) (h : Reported perr)
    (hsize : th.ulHeaderDataSizeSentToClient = 0) :
    th.closingHttpGet perr text = .error .badAlloc ∨
      ∃ code th', th.closingHttpGet perr text = .ok (code, th') ∧
        th'.psSession
          = (th.psSession.answer th.tUTCStartConnectionTime (failureReport (text perr))).2 ∧
        th'.tUTCStartConnectionTime = th.tUTCStartConnectionTime := by
  unfold closingHttpGet
  rw [if_pos ⟨h.1, h.2, hsize⟩]
  have hstart := Buffer.perform_setBuffer headerStart .toolsBufferSetBufferFailed [] hth.header
  rw [List.map_nil] at hstart
  rcases hstart with hbad | ⟨h₁, hh₁, hsim₁⟩
  · exact Or.inl (by rw [hbad, error_bind])
  rw [hh₁, ok_bind]
  dsimp only
  rw [if_neg (by simp)]
  have hbody := Buffer.perform_setBuffer failureStart .toolsBufferAppendFailed
    [(text perr, .toolsBufferAppendFailed), (failureEnd, .toolsBufferAppendFailed)] hth.body
  simp only [List.map_cons, List.map_nil] at hbody
  rcases hbody with hbad | ⟨b₁, hb₁, hsimb⟩
  · exact Or.inl (by rw [hbad, error_bind])
  rw [hb₁, ok_bind]
  dsimp only
  rw [if_neg (by simp)]
  have hbodyText : failureStart.bytes ++
      [(text perr, ProxyError.toolsBufferAppendFailed),
        (failureEnd, ProxyError.toolsBufferAppendFailed)].flatMap (·.1.bytes)
      = (failureReport (text perr)).body := by
    simp [failureReport]
  rw [hbodyText] at hsimb
  have hnumber := Buffer.perform_appends [(number b₁.length, .toolsBufferAppendFailed)] hsim₁
  rw [List.map_cons, List.map_nil] at hnumber
  rcases hnumber with hbad | ⟨h₂, hh₂, hsim₂⟩
  · exact Or.inl (by rw [hbad, error_bind])
  rw [hh₂, ok_bind]
  dsimp only
  rw [if_neg (by simp)]
  have hend := Buffer.perform_appends [(headerEnd, .toolsBufferAppendFailed)] hsim₂
  rw [List.map_cons, List.map_nil] at hend
  rcases hend with hbad | ⟨h₃, hh₃, hsim₃⟩
  · exact Or.inl (by rw [hbad, error_bind])
  rw [hh₃, ok_bind]
  dsimp only
  rw [if_neg (by simp)]
  -- the length that is announced is the one of the body
  have hlength := hsimb.length_eq
  have hbound : (b₁.length : Int).natAbs < 10 ^ 20 := by
    have hcapacity := hsimb.1.bounded
    obtain ⟨rest, hrest⟩ := hsimb.1.split
    have hcells := congrArg List.length hrest
    rw [hsimb.1.length_eq, List.length_append, List.length_map, List.length_cons] at hcells
    unfold maxAllocation at hcapacity
    omega
  have hheader : ClientSession.Stored (some h₃) (some (headerText b₁.length)) := by
    simpa [ClientSession.Stored, headerText] using hsim₃.1
  have hnul : ∀ t ∈ some (headerText b₁.length), 0 ∉ t ∧ t.length < 2 ^ 32 := by
    rintro t ht
    obtain rfl := Option.mem_some_iff.mp ht
    exact ⟨headerText_nulFree _, length_headerText hbound⟩
  have horder : InOrder { th with
      bHttpGetHeaderResponse := h₃
      bHttpGetBodyResponse := b₁
      ulHeaderDataSizeSentToClient := h₂.length
      ullBodyDataSizeSentToClient := b₁.length } := ⟨hsim₃.1.ready, hsimb.1.ready⟩
  rcases writeResponse_eq horder hheader hnul hsimb.1 true with
    hbad | ⟨header', body', hrun, -, -⟩
  · exact Or.inl hbad
  · refine Or.inr ⟨_, _, hrun, ?_, rfl⟩
    rw [hlength]
    rfl

/-! ### The end of an exchange -/

/-- The pieces that the thread is given; none when the body is not read. -/
def bodyPieces (x : Exchange) : List (List UInt8) :=
  if x.beforeReading ≠ .errNoError ∨ x.header ≠ .errNoError ∨ x.isGetRequest then []
  else (pieces x.contentLength (x.server.unread.length + 2) 0 x.server).1

/-- The code that an exchange without pieces ends with. -/
def earlyError (x : Exchange) : HttpGetError :=
  if x.beforeReading ≠ .errNoError then x.beforeReading
  else if x.header ≠ .errNoError then x.header
  else if x.isGetRequest then x.afterReading
  else
    match (pieces x.contentLength (x.server.unread.length + 2) 0 x.server).2 with
    | none => x.afterReading
    | some errRead => readError errRead

/-- How many pieces are passed to the client, one response each, before a write fails. -/
def passedOn (x : Exchange) (th : HTTPProxyThread) : Nat :=
  (th.psSession.succeeding th.tUTCStartConnectionTime
    (responses (totalContentLength x.contentLength) 0 0 (bodyPieces x))).length

/-- A thread as `init` leaves it. -/
structure Started (th : HTTPProxyThread) : Prop where
  inOrder : th.InOrder
  header : th.ulHeaderDataSizeSentToClient = 0
  registered : th.psSession.registered = 0

/-- The session is not lost: one finished response has put the socket in the pool, or the
connection of the thread has been closed. -/
def NotLost (th : HTTPProxyThread) : Prop :=
  th.psSession.registered = 1 ∨ th.tUTCStartConnectionTime ≠ th.psSession.tUTCStartConnectionTime

/-- The exchanges after which the session is not lost. -/
def Answered (text : HttpGetError → CStr) (x : Exchange) (th : HTTPProxyThread) : Prop :=
  th.tUTCStartConnectionTime ≠ th.psSession.tUTCStartConnectionTime ∨
    if bodyPieces x = [] then
      Reported (earlyError x) ∧
        (th.psSession.answer th.tUTCStartConnectionTime
          (failureReport (text (earlyError x)))).1 = .errNoError
    else
      match x.contentLength with
      | some n => n.toNat ≤ x.server.unread.length ∧ (bodyPieces x).length ≤ passedOn x th
      | none => ((totals 0 (bodyPieces x)).take (passedOn x th)).countP (· = 2 ^ 64 - 1) = 1

theorem readError_ne (errRead : SocketError) : readError errRead ≠ .errNoError := by
  cases errRead <;> decide

/-- Without a piece, the thread does nothing but close with the code of the exchange. -/
theorem run_noPieces (text : HttpGetError → CStr) (x : Exchange) (h : bodyPieces x = [])
    (hth : th.InOrder) :
    ∃ th₁ : HTTPProxyThread, th₁.InOrder ∧ th₁.psSession = th.psSession ∧
      th₁.tUTCStartConnectionTime = th.tUTCStartConnectionTime ∧
      th₁.ulHeaderDataSizeSentToClient = th.ulHeaderDataSizeSentToClient ∧
      th.run text x = (do
        let (_, th) ← th₁.closingHttpGet (earlyError x) text
        return (earlyError x, th)) := by
  unfold run earlyError
  by_cases hbefore : x.beforeReading ≠ .errNoError
  · rw [if_pos hbefore, if_pos hbefore]
    exact ⟨th, hth, rfl, rfl, rfl, rfl⟩
  rw [if_neg hbefore, if_neg hbefore]
  refine ⟨{ th with bHttpGetHeaderResponse := x.headerBuffer.1 }, ⟨x.headerBuffer.2, hth.body⟩,
    rfl, rfl, rfl, ?_⟩
  unfold readHttpHeaderAndBody
  dsimp only
  by_cases hheader : x.header ≠ .errNoError
  · rw [if_pos hheader, if_pos hheader, ok_bind]
    dsimp only
    rw [if_pos hheader]
  rw [if_neg hheader, if_neg hheader]
  by_cases hget : x.isGetRequest = true
  · rw [if_pos hget, if_pos hget, ok_bind]
    dsimp only
    rw [if_neg (by simp)]
  rw [if_neg hget, if_neg hget, bodyLoop_eq _ _ _ _ _ _ (Nat.lt_succ_self _)]
  have hpieces : (pieces x.contentLength (x.server.unread.length + 2) 0 x.server).1 = [] := by
    unfold bodyPieces at h
    rwa [if_neg (by simp_all)] at h
  rw [hpieces, chunkReads, ok_bind]
  dsimp only
  rw [if_neg (by simp)]
  cases (pieces x.contentLength (x.server.unread.length + 2) 0 x.server).2 with
  | none => rfl
  | some errRead =>
    show (Except.ok _ >>= _) = _
    rw [ok_bind]
    exact if_pos (readError_ne errRead)

/-- With pieces, closing does nothing: the header has been sent. -/
theorem run_pieces (text : HttpGetError → CStr) (x : Exchange) (h : bodyPieces x ≠ [])
    (hth : th.InOrder) :
    ∃ th₁ : HTTPProxyThread, th₁.InOrder ∧ th₁.psSession = th.psSession ∧
      th₁.tUTCStartConnectionTime = th.tUTCStartConnectionTime ∧
      (∀ fault, th₁.chunkReads (totalContentLength x.contentLength) 0 (bodyPieces x)
          = .error fault → th.run text x = .error fault) ∧
      ∀ err th', th₁.chunkReads (totalContentLength x.contentLength) 0 (bodyPieces x)
          = .ok (err, th') → th'.ulHeaderDataSizeSentToClient ≠ 0 →
        ∃ e, th.run text x = .ok (e, th') := by
  unfold bodyPieces at h ⊢
  have hread : ¬ (x.beforeReading ≠ .errNoError ∨ x.header ≠ .errNoError ∨ x.isGetRequest) := by
    intro hnone
    exact h (if_pos hnone)
  rw [if_neg hread]
  rw [not_or, not_or] at hread
  unfold run readHttpHeaderAndBody
  dsimp only
  rw [if_neg hread.1, if_neg hread.2.1, if_neg hread.2.2,
    bodyLoop_eq _ _ _ _ _ _ (Nat.lt_succ_self _)]
  refine ⟨{ th with bHttpGetHeaderResponse := x.headerBuffer.1 }, ⟨x.headerBuffer.2, hth.body⟩,
    rfl, rfl, fun fault hrun => ?_, fun err th' hrun hsize => ?_⟩
  · rw [hrun]
    rfl
  · have hskip : ∀ perr, th'.closingHttpGet perr text = .ok (.errNoError, th') := fun perr =>
      closingHttpGet_skip text fun _ => hsize
    rw [hrun, ok_bind]
    dsimp only
    show ∃ e, (Except.ok _ >>= _) = _
    rw [ok_bind]
    dsimp only
    rw [hskip, hskip]
    split_ifs <;> exact ⟨_, rfl⟩

theorem bodyPieces_eq {x : Exchange} (h : bodyPieces x ≠ []) :
    bodyPieces x = (pieces x.contentLength (x.server.unread.length + 2) 0 x.server).1 := by
  unfold bodyPieces at h ⊢
  split_ifs at h ⊢
  · exact absurd rfl h
  · rfl

theorem totals_lt {sofar : Nat} {chunks : List (List UInt8)} :
    ∀ n ∈ totals sofar chunks, n < 2 ^ 64 := by
  induction chunks generalizing sofar with
  | nil => exact fun n hn => absurd hn (by simp [totals])
  | cons chunk chunks ih => exact List.forall_mem_cons.mpr ⟨Nat.mod_lt _ (by decide), ih⟩

/-- Whether one of the pieces that are passed on finishes the response. -/
theorem countP_succeeding (x : Exchange) (th : HTTPProxyThread) (h : bodyPieces x ≠ []) :
    (th.psSession.succeeding th.tUTCStartConnectionTime
        (responses (totalContentLength x.contentLength) 0 0 (bodyPieces x))).countP (·.finished) = 1 ↔
      match x.contentLength with
      | some n => n.toNat ≤ x.server.unread.length ∧ (bodyPieces x).length ≤ passedOn x th
      | none => ((totals 0 (bodyPieces x)).take (passedOn x th)).countP (· = 2 ^ 64 - 1) = 1 := by
  have htake := List.prefix_iff_eq_take.mp (ClientSession.succeeding_prefix
    th.tUTCStartConnectionTime
    (responses (totalContentLength x.contentLength) 0 0 (bodyPieces x)) th.psSession)
  rw [htake, countP_take_responses]
  change (((totals 0 (bodyPieces x)).take (passedOn x th)).countP _ = 1) ↔ _
  cases hlength : x.contentLength with
  | none =>
    dsimp only
    rw [List.countP_congr (q := fun m => decide (m = 2 ^ 64 - 1))]
    intro m hm
    have hlt := totals_lt m (List.mem_of_mem_take hm)
    have htotal : (totalContentLength none).toUInt64.toNat = 2 ^ 64 - 1 := by decide
    unfold isResponseFinished
    rw [htotal, decide_eq_true_eq, decide_eq_true_eq]
    omega
  | some n =>
    have htotal : (totalContentLength (some n)).toUInt64.toNat = n.toNat := by
      simp [totalContentLength]
    obtain ⟨hne, hflat⟩ := pieces_some n (x.server.unread.length + 2) 0 x.server
      (Nat.lt_succ_self _) (Nat.zero_le _)
    rw [← hlength, ← bodyPieces_eq h] at hne hflat
    unfold isResponseFinished
    rw [htotal, countP_totals _ n.toNat_lt hne (by omega) h]
    dsimp only
    rw [ite_eq_left_iff]
    omega

/-- **When the thread has ended**, the session is not lost exactly after these exchanges. -/
theorem run_notLost_iff (text : HttpGetError → CStr) (x : Exchange) (hth : th.Started) :
    th.run text x = .error .badAlloc ∨
      ∃ e th', th.run text x = .ok (e, th') ∧ (NotLost th' ↔ Answered text x th) := by
  unfold Answered
  by_cases hpieces : bodyPieces x = []
  · rw [if_pos hpieces]
    obtain ⟨th₁, hth₁, hsession, hstart, hsize, hrun⟩ := run_noPieces text x hpieces hth.inOrder
    rw [hth.header] at hsize
    rw [hrun]
    by_cases hreported : Reported (earlyError x)
    · rcases closingHttpGet_report hth₁ text hreported hsize with hbad | ⟨code, th', hclose, hs, ht⟩
      · exact Or.inl (by rw [hbad, error_bind])
      refine Or.inr ⟨_, th', by rw [hclose, ok_bind]; rfl, ?_⟩
      have hregistered := ClientSession.answer_registered th.tUTCStartConnectionTime
        (failureReport (text (earlyError x))) th.psSession
      have hsame := ClientSession.respond_start th.tUTCStartConnectionTime
        (failureReport (text (earlyError x))).header (some (failureReport (text (earlyError x))).body)
        (failureReport (text (earlyError x))).finished th.psSession
      change (ClientSession.answer th.tUTCStartConnectionTime (failureReport (text (earlyError x)))
        th.psSession).2.tUTCStartConnectionTime = _ at hsame
      rw [hsession, hstart] at hs
      unfold NotLost
      rw [hs, hsame, ht, hstart, hregistered, hth.registered, ClientSession.succeeding]
      split_ifs with hok
      · refine iff_of_true (Or.inl ?_) (Or.inr ⟨hreported, hok⟩)
        simp [ClientSession.succeeding, failureReport]
      · simp [hok]
    · rw [closingHttpGet_skip text fun h => absurd h hreported, ok_bind]
      refine Or.inr ⟨_, th₁, rfl, ?_⟩
      unfold NotLost
      rw [hsession, hstart, hth.registered]
      simp [hreported]
  · rw [if_neg hpieces, ← countP_succeeding x th hpieces]
    obtain ⟨th₁, hth₁, hsession, hstart, hfault, hrun⟩ := run_pieces text x hpieces hth.inOrder
    rcases chunkReads_registered (totalContentLength x.contentLength) (bodyPieces x) hth₁ 0 0 rfl with
      hbad | ⟨err, th', hchunks, -, hregistered, hsame, htime, hsize⟩
    · exact Or.inl (hfault _ hbad)
    · obtain ⟨e, he⟩ := hrun err th' hchunks (hsize ⟨hpieces, Or.inl rfl⟩)
      refine Or.inr ⟨e, th', he, ?_⟩
      unfold NotLost
      rw [hregistered, hsame, htime, hsession, hstart, hth.registered, Nat.zero_add]
      exact or_comm

theorem newThread_started : newThread.Started := ⟨newThread_inOrder, rfl, rfl⟩

/-- A reply whose body comes as it was announced, on a connection that is then closed. -/
def plainReply (n : UInt64) (body : List UInt8) : Exchange :=
  ⟨.errNoError, .errNoError, ⟨emptyBuffer, emptyBuffer_ready⟩, false, some n,
    ⟨body, fun _ => 1, 0, .readEofReached⟩, .errNoError⟩

/-- A body of two bytes, passed on one by one. -/
theorem run_notLost_text :
    ∃ e th', newThread.run (fun _ => headerEnd) (plainReply 2 [72, 105]) = .ok (e, th') ∧
      NotLost th' := by
  have hok : (newThread.run (fun _ => headerEnd) (plainReply 2 [72, 105])).isOk := by
    decide +kernel
  rcases run_notLost_iff (fun _ => headerEnd) (plainReply 2 [72, 105]) newThread_started with
    hbad | ⟨e, th', hrun, hiff⟩
  · rw [hbad] at hok
    exact absurd hok (by decide)
  · refine ⟨e, th', hrun, hiff.mpr (Or.inr ?_)⟩
    have hpieces : bodyPieces (plainReply 2 [72, 105]) = [[72], [105]] := by decide +kernel
    have hpassed : passedOn (plainReply 2 [72, 105]) newThread = 2 := by decide +kernel
    rw [if_neg (by rw [hpieces]; simp), hpieces, hpassed]
    exact ⟨by decide, by decide⟩

/-- A reply with `Content-Length: 0`: no piece is passed on, so nothing is ever written. -/
theorem run_lost :
    ∃ e th', newThread.run (fun _ => headerEnd) (plainReply 0 []) = .ok (e, th') ∧
      ¬ NotLost th' := by
  have heval : (newThread.run (fun _ => headerEnd) (plainReply 0 [])).map
      (fun r => (r.2.psSession.registered, r.2.tUTCStartConnectionTime,
        r.2.psSession.tUTCStartConnectionTime)) = .ok (0, 1, 1) := by decide +kernel
  cases hrun : newThread.run (fun _ => headerEnd) (plainReply 0 []) with
  | error e =>
    rw [hrun] at heval
    exact absurd heval (by rintro ⟨⟩)
  | ok r =>
    rw [hrun] at heval
    obtain ⟨hregistered, hrest⟩ := Prod.mk.inj (Except.ok.inj heval)
    obtain ⟨hthread, hsession⟩ := Prod.mk.inj hrest
    refine ⟨r.1, r.2, rfl, ?_⟩
    unfold NotLost
    rw [hregistered, hthread, hsession]
    decide

end HTTPProxyThread

end CatraLibraries
