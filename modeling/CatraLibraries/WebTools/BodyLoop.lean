/-
# Reading an HTTP body from a socket

`WebTools/src/WebUtility.cpp`, the body part of `readHttpHeaderAndBody`.  The field `Content-Length`
says how many bytes there are; they are read in blocks that fit the body buffer and what is left, and
each block goes to a callback, or into a buffer.  Without the field the loop ends when a read fails.

`bodyLoop_spec` is the loop with a callback: whatever the reads return, the chunks are the bytes of the
stream in order, no more than asked for, and the loop ends well just when there are so many.
`atoll` gives the largest `long long` for a number that is too large, so the number that the loop goes
by is the one of the field below 2^63.
-/
import CatraLibraries.Lib.Stdio
import CatraLibraries.WebTools.HeaderLoop
import CatraLibraries.WebTools.HeaderValue

namespace CatraLibraries

open Memory CString

namespace WebUtility

/-! ### The code -/

/-- Bytes as the characters of a text. -/
def chars (s : List UInt8) : List Char := s.map fun c => Char.ofNat c.toNat

/-- `atoll`, which is `atol` where a `long` has 64 bits. -/
def atoll (m : Cells UInt8) : Except Fault ℤ := do return Stdio.atol (chars (← cstr m))

/-- `WEBTOOLS_MAXHTTPBODYBUFFERSIZE`. -/
def maxHttpBodyBufferSize : ℕ := 1024 * 4

/-- A call of the callback. -/
structure Chunk where
  ulChunkReadIndex : ℕ
  llContentLength : ℤ
  pContentType : Cells UInt8
  pucChunk : List UInt8
  deriving DecidableEq, Repr

/-- The errors of the body part; the error of a read is passed on. -/
inductive HttpBodyError
  | errNoError
  | bufferInitFailed
  | bufferFinishFailed
  | activationWrong
  | bodyTimeoutExpired
  | socketRead (errRead : SocketError)
  | chunkReadFailed
  | bufferAppendFailed
  deriving DecidableEq, Repr

/-- The callback: what it answers to its calls so far, the last one among them. -/
abbrev ChunkReadFunction := List Chunk → Bool

/-- What the loop works on. -/
structure BodyState where
  sock : Socket
  pLocalHttpBodyResponse : Cells UInt8
  pbHttpBody : Option Buffer
  ulChunkReadIndex : ℕ
  ullCurrentBodyLength : ℕ
  chunks : List Chunk

/-- `SocketImpl::read` into the body buffer: as many bytes as are asked for are zeroed first. -/
def readBlock (ulReceivingTimeoutInMicroSeconds : ℕ) (pvBuffer : Cells UInt8) (ulBufferLength : ℕ)
    (sock : Socket) : Except Fault (Except HttpBodyError ℕ × Cells UInt8 × Socket) :=
  if ulBufferLength = 0 ∨ 1000000 ≤ ulReceivingTimeoutInMicroSeconds then
    .ok (.error .activationWrong, pvBuffer, sock)
  else
    match sock.read ulBufferLength true with
    | .error errRead =>
      .ok (.error (if errRead = .nothingToRead then .bodyTimeoutExpired else .socketRead errRead),
        pvBuffer, sock)
    | .ok (block, sock) => do
      let pvBuffer ← writeAt pvBuffer 0
        ((block ++ List.replicate (ulBufferLength - block.length) 0).map some)
      return (.ok block.length, pvBuffer, sock)

/-- What becomes of a block: the callback is called, or the block goes into the buffer. -/
def handleBlock (chunkRead : Option ChunkReadFunction) (ullContentLength : Option ℕ)
    (pContentType : Cells UInt8) (ulBufferLength : ℕ) (s : BodyState) :
    Except Fault (HttpBodyError × BodyState) := do
  match chunkRead with
  | some chunkRead =>
    let pucChunk ← loads s.pLocalHttpBodyResponse 0 ulBufferLength
    let llContentLength : ℤ :=
      match ullContentLength with
      | some ullContentLength => (ullContentLength : ℤ).bmod (2 ^ 64)
      | none => -1
    let chunks :=
      s.chunks ++ [⟨s.ulChunkReadIndex, llContentLength, pContentType, pucChunk⟩]
    let s := { s with ulChunkReadIndex := s.ulChunkReadIndex + 1, chunks := chunks }
    return (if chunkRead chunks then .errNoError else .chunkReadFailed, s)
  | none =>
    match s.pbHttpBody with
    | some pbHttpBody =>
      let (err, pbHttpBody) ← pbHttpBody.append (some s.pLocalHttpBodyResponse) ulBufferLength
      let s := { s with pbHttpBody := some pbHttpBody }
      return (if err = .errNoError then .errNoError else .bufferAppendFailed, s)
    | none => return (.errNoError, s)

/-- The loop `while (!bIsBodyFinished)`. -/
def bodyLoop (chunkRead : Option ChunkReadFunction) (ullContentLength : Option ℕ)
    (pContentType : Cells UInt8) (ulReceivingTimeoutInMicroSeconds ulBodyBufferSize : ℕ) :
    ℕ → BodyState → Except Fault (HttpBodyError × BodyState)
  | 0, _ => .error .outOfFuel
  | fuel + 1, s =>
    let ulBufferLength : Option ℕ :=
      match ullContentLength with
      | some n =>
        if s.ullCurrentBodyLength < n then
          some (if n - s.ullCurrentBodyLength > ulBodyBufferSize then ulBodyBufferSize
            else n - s.ullCurrentBodyLength)
        else none
      | none => some ulBodyBufferSize
    match ulBufferLength with
    | none => .ok (.errNoError, s)
    | some ulBufferLength => do
      let (r, pLocalHttpBodyResponse, sock) ← readBlock ulReceivingTimeoutInMicroSeconds
        s.pLocalHttpBodyResponse ulBufferLength s.sock
      let s := { s with pLocalHttpBodyResponse := pLocalHttpBodyResponse, sock := sock }
      match r with
      | .error err => return (err, s)
      | .ok ulBufferLength =>
        let (err, s) ← handleBlock chunkRead ullContentLength pContentType ulBufferLength s
        if err ≠ .errNoError then return (err, s)
        else
          bodyLoop chunkRead ullContentLength pContentType ulReceivingTimeoutInMicroSeconds
            ulBodyBufferSize fuel
            { s with ullCurrentBodyLength := s.ullCurrentBodyLength + ulBufferLength }

/-- The name `Content-Length`. -/
def contentLengthName : FieldName :=
  ⟨⟨bytesOf "Content-Length", by decide⟩, by decide, by decide, by decide, by decide⟩

/-- The value of `Content-Length`, as an `unsigned long long`, where the field is there. -/
def contentLength (pHttpHeader : Cells UInt8) : Except Fault (Except HttpBodyError (Option ℕ)) := do
  let (err, bContentLength) ← Buffer.built.initEmpty
  if err ≠ .errNoError then return .error .bufferInitFailed
  else
    let (errValue, bContentLength) ←
      getHttpHeaderValue (some pHttpHeader) (some contentLengthName.text) (some bContentLength)
    match bContentLength with
    | none => return .error .bufferFinishFailed
    | some bContentLength =>
      let ullContentLength ←
        if errValue ≠ .errNoError then pure none
        else do
          let llContentLength ← atoll bContentLength.str
          pure (some (llContentLength % 2 ^ 64).toNat)
      let (err, _) ← bContentLength.finish false
      if err ≠ .errNoError then return .error .bufferFinishFailed
      else return .ok ullContentLength

/-- The body part of `readHttpHeaderAndBody`; every turn of the loop takes a byte from the socket. -/
def readHttpBody (pHttpHeader pContentType : Cells UInt8) (hmHttpMethod : HttpMethod)
    (chunkRead : Option ChunkReadFunction) (pbHttpBody : Option Buffer)
    (ulReceivingTimeoutInMicroSeconds : ℕ) (sock : Socket) :
    Except Fault (HttpBodyError × BodyState) := do
  let s : BodyState := ⟨sock, [], pbHttpBody, 0, 0, []⟩
  if (pbHttpBody.isNone ∧ chunkRead.isNone) ∨ hmHttpMethod = .get then return (.errNoError, s)
  else
    match ← contentLength pHttpHeader with
    | .error err => return (err, s)
    | .ok ullContentLength =>
      let ulBodyBufferSize :=
        match ullContentLength with
        | some n => if n ≤ maxHttpBodyBufferSize then n + 1 else maxHttpBodyBufferSize
        | none => maxHttpBodyBufferSize
      bodyLoop chunkRead ullContentLength pContentType ulReceivingTimeoutInMicroSeconds
        ulBodyBufferSize (sock.unread.length + 1)
        { s with pLocalHttpBodyResponse := List.replicate ulBodyBufferSize none }

/-! ### One block -/

/-- A read with bytes in the socket puts some of them at the beginning of the buffer. -/
theorem readBlock_ready {micros : ℕ} (hmicros : micros < 1000000) {buffer : Cells UInt8} {len : ℕ}
    (hlen : 0 < len) (hfits : len ≤ buffer.length) {sock : Socket} (hne : sock.unread ≠ []) :
    ∃ rest, sock.readLength len + rest.length = buffer.length ∧
      readBlock micros buffer len sock =
        .ok (.ok (sock.readLength len),
          (sock.unread.take (sock.readLength len)).map some ++ rest,
          { sock with
            unread := sock.unread.drop (sock.readLength len)
            reads := sock.reads + 1 }) := by
  obtain ⟨hpos, hle, hthere⟩ := sock.readLength_le hlen hne
  have hblock : (sock.unread.take (sock.readLength len)).length = sock.readLength len :=
    List.length_take_of_le hthere
  generalize hk : sock.readLength len = k at hpos hle hthere hblock
  refine ⟨(List.replicate (len - k) 0).map some ++ buffer.drop len, ?_, ?_⟩
  · rw [List.length_append, List.length_map, List.length_replicate, List.length_drop]
    omega
  · have hread : sock.read len true = .ok (sock.unread.take k,
        { sock with unread := sock.unread.drop k, reads := sock.reads + 1 }) := by
      rw [Socket.read, if_neg hne, ← hk]
      rfl
    have hnew : ((sock.unread.take k ++ List.replicate (len - k) 0).map some).length = len := by
      rw [List.length_map, List.length_append, hblock, List.length_replicate]
      omega
    unfold readBlock
    rw [if_neg (by omega), hread]
    dsimp only
    rw [hblock, writeAt, if_pos (by rw [hnew]; omega), ok_bind, hnew, List.take_zero,
      List.nil_append, List.map_append, List.append_assoc, Nat.zero_add]
    rfl

/-- A read without bytes in the socket ends with an error. -/
theorem readBlock_ended {micros : ℕ} (hmicros : micros < 1000000) (buffer : Cells UInt8) {len : ℕ}
    (hlen : 0 < len) {sock : Socket} (hnil : sock.unread = []) :
    ∃ err, err ≠ HttpBodyError.errNoError ∧
      readBlock micros buffer len sock = .ok (.error err, buffer, sock) := by
  refine ⟨if sock.endError = .nothingToRead then .bodyTimeoutExpired else .socketRead sock.endError,
    ?_, ?_⟩
  · split <;> nofun
  · unfold readBlock
    rw [if_neg (by omega), Socket.read, if_pos hnil]

/-- The callback gets the block that was read. -/
theorem handleBlock_eq {chunkRead : ChunkReadFunction} (hanswers : ∀ chunks, chunkRead chunks = true)
    (n : ℕ) (pContentType : Cells UInt8) {s : BodyState} (block : List UInt8) {rest : Cells UInt8}
    (hs : s.pLocalHttpBodyResponse = block.map some ++ rest) :
    handleBlock (some chunkRead) (some n) pContentType block.length s =
      .ok (.errNoError, { s with
        ulChunkReadIndex := s.ulChunkReadIndex + 1
        chunks := s.chunks ++
          [⟨s.ulChunkReadIndex, (n : ℤ).bmod (2 ^ 64), pContentType, block⟩] }) := by
  have hloads : loads s.pLocalHttpBodyResponse 0 block.length = .ok block := by
    rw [hs]
    exact loads_append [] rest block
  unfold handleBlock
  dsimp only
  rw [hloads, ok_bind, hanswers]
  rfl

/-! ### The loop -/

/-- **What the loop has passed on**: chunks that are numbered, of the total `n`, and the bytes of the
socket up to the `n`th of the body; it ends well when there are so many. -/
structure Passed (n : ℕ) (s : BodyState) (new : List Chunk) (out : HttpBodyError × BodyState) :
    Prop where
  chunks : out.2.chunks = s.chunks ++ new
  numbered : new.map (·.ulChunkReadIndex) = List.range' s.ulChunkReadIndex new.length
  total : ∀ c ∈ new, c.llContentLength = (n : ℤ).bmod (2 ^ 64)
  bytes : new.flatMap (·.pucChunk) = s.sock.unread.take (n - s.ullCurrentBodyLength)
  unread : out.2.sock.unread = s.sock.unread.drop (n - s.ullCurrentBodyLength)
  ends : out.1 = .errNoError ↔ n - s.ullCurrentBodyLength ≤ s.sock.unread.length

/-- A block in front of what is passed on behind it. -/
theorem Passed.cons {n k : ℕ} {s s₁ : BodyState} {new : List Chunk}
    {out : HttpBodyError × BodyState} {pContentType : Cells UInt8} (h : Passed n s₁ new out)
    (hk : k ≤ s.sock.unread.length) (hn : s.ullCurrentBodyLength + k ≤ n)
    (hunread : s₁.sock.unread = s.sock.unread.drop k)
    (hcurrent : s₁.ullCurrentBodyLength = s.ullCurrentBodyLength + k)
    (hindex : s₁.ulChunkReadIndex = s.ulChunkReadIndex + 1)
    (hchunks : s₁.chunks = s.chunks ++
      [⟨s.ulChunkReadIndex, (n : ℤ).bmod (2 ^ 64), pContentType, s.sock.unread.take k⟩]) :
    Passed n s
      (⟨s.ulChunkReadIndex, (n : ℤ).bmod (2 ^ 64), pContentType, s.sock.unread.take k⟩ :: new)
      out := by
  have hrest : n - s.ullCurrentBodyLength = k + (n - s₁.ullCurrentBodyLength) := by omega
  refine ⟨?_, ?_, ?_, ?_, ?_, ?_⟩
  · rw [h.chunks, hchunks, List.append_assoc]
    rfl
  · rw [List.map_cons, h.numbered, hindex, List.length_cons, List.range'_succ]
  · intro c hc
    rcases List.mem_cons.mp hc with rfl | hc
    · dsimp only
    · exact h.total c hc
  · rw [List.flatMap_cons, h.bytes, hunread, hrest, List.take_add]
  · rw [h.unread, hunread, hrest, List.drop_drop]
  · rw [h.ends, hunread, hrest, List.length_drop]
    omega

/-- **The loop with a callback**, however the socket splits the stream.  The induction is on the
turns; every turn takes a byte from the socket. -/
theorem bodyLoop_spec {chunkRead : ChunkReadFunction} (hanswers : ∀ chunks, chunkRead chunks = true)
    (n : ℕ) (pContentType : Cells UInt8) {micros : ℕ} (hmicros : micros < 1000000) {size : ℕ}
    (hsize : 0 < size) {fuel : ℕ} {s : BodyState} (hbuffer : s.pLocalHttpBodyResponse.length = size)
    (hfuel : s.sock.unread.length < fuel) (hcurrent : s.ullCurrentBodyLength ≤ n) :
    ∃ new out, bodyLoop (some chunkRead) (some n) pContentType micros size fuel s = .ok out ∧
      Passed n s new out := by
  induction fuel generalizing s with
  | zero => omega
  | succ fuel ih =>
    by_cases hmore : s.ullCurrentBodyLength < n
    · generalize hlen : (if n - s.ullCurrentBodyLength > size then size
        else n - s.ullCurrentBodyLength) = len
      have hbounds : 0 < len ∧ len ≤ size ∧ len ≤ n - s.ullCurrentBodyLength := by
        rw [← hlen]
        split <;> omega
      obtain ⟨hpos, hfits, hneeded⟩ := hbounds
      unfold bodyLoop
      simp only [if_pos hmore, hlen]
      by_cases hnil : s.sock.unread = []
      · -- the stream has ended
        obtain ⟨err, herr, hread⟩ :=
          readBlock_ended hmicros s.pLocalHttpBodyResponse hpos hnil
        rw [hread]
        refine ⟨[], _, rfl, (List.append_nil _).symm, rfl, nofun, ?_, ?_, ?_⟩
        · rw [hnil, List.take_nil]
          rfl
        · show s.sock.unread = _
          rw [hnil, List.drop_nil]
        · rw [hnil]
          exact iff_of_false herr (by rw [List.length_nil]; omega)
      · obtain ⟨rest, hrest, hread⟩ :=
          readBlock_ready hmicros hpos (hbuffer ▸ hfits) hnil
        obtain ⟨hk, hklen, hkthere⟩ := s.sock.readLength_le hpos hnil
        generalize s.sock.readLength len = k at hrest hread hk hklen hkthere
        have hblock : (s.sock.unread.take k).length = k := List.length_take_of_le hkthere
        rw [hread, ok_bind]
        dsimp only
        have hhandled := handleBlock_eq hanswers n pContentType (s.sock.unread.take k)
          (s := { s with
            pLocalHttpBodyResponse := (s.sock.unread.take k).map some ++ rest
            sock := { s.sock with unread := s.sock.unread.drop k, reads := s.sock.reads + 1 } }) rfl
        rw [hblock] at hhandled
        rw [hhandled, ok_bind]
        dsimp only
        rw [if_neg (fun h => h rfl)]
        obtain ⟨new, out, hrun, hpassed⟩ := ih
          (s := ⟨{ s.sock with unread := s.sock.unread.drop k, reads := s.sock.reads + 1 },
            (s.sock.unread.take k).map some ++ rest, s.pbHttpBody, s.ulChunkReadIndex + 1,
            s.ullCurrentBodyLength + k, s.chunks ++
              [⟨s.ulChunkReadIndex, (n : ℤ).bmod (2 ^ 64), pContentType, s.sock.unread.take k⟩]⟩)
          (by rw [List.length_append, List.length_map, hblock, hrest, hbuffer])
          (by
            show (s.sock.unread.drop k).length < fuel
            rw [List.length_drop]
            omega)
          (by
            show s.ullCurrentBodyLength + k ≤ n
            omega)
        exact ⟨_, out, hrun, hpassed.cons hkthere (by omega) rfl rfl rfl rfl⟩
    · have hend : n - s.ullCurrentBodyLength = 0 := by omega
      unfold bodyLoop
      simp only [if_neg hmore]
      refine ⟨[], _, rfl, (List.append_nil _).symm, rfl, nofun, ?_, ?_, ?_⟩
      · rw [hend]
        rfl
      · rw [hend]
        rfl
      · rw [hend]
        exact iff_of_true rfl (Nat.zero_le _)

/-! ### The whole body -/

/-- **A body is read**: the chunks are numbered from 0, each has the total, and together they are the
first `n` bytes of the stream; the socket is left behind them.  The end is good when there are so many
bytes. -/
structure BodyRead (n : ℕ) (stream : List UInt8) (out : HttpBodyError × BodyState) : Prop where
  numbered : out.2.chunks.map (·.ulChunkReadIndex) = List.range out.2.chunks.length
  total : ∀ c ∈ out.2.chunks, c.llContentLength = n
  bytes : out.2.chunks.flatMap (·.pucChunk) = stream.take n
  unread : out.2.sock.unread = stream.drop n
  ends : out.1 = .errNoError ↔ n ≤ stream.length

/-- The digits of a number. -/
structure Decimal (digits : List UInt8) (n : ℕ) : Prop where
  numeral : Stdio.IsNumeral (chars digits)
  value : Stdio.decimal (chars digits) = n

/-- Digits are looked at one by one. -/
theorem decimal_of_all {digits : List UInt8} {n : ℕ}
    (h : chars digits ≠ [] ∧ (chars digits).all Char.isDigit ∧ Stdio.decimal (chars digits) = n) :
    Decimal digits n :=
  ⟨⟨h.1, List.all_eq_true.mp h.2.1⟩, h.2.2⟩

/-- `atoll` of a number, which is no larger than the largest `long long`. -/
theorem atoll_decimal {m : Cells UInt8} {digits : List UInt8} (hm : Holds m digits) {n : ℕ}
    (h : Decimal digits n) : atoll m = .ok (min (2 ^ 63 - 1) (n : ℤ)) := by
  unfold atoll
  rw [hm.cstr_eq, ok_bind, Stdio.atol_eq_min h.numeral, h.value]
  rfl

/-- The number that the loop goes by. -/
theorem contentLength_eq (block : HeaderBlock) {m : Cells UInt8} (hm : Holds m block.text)
    {f : HeaderField} (hf : block.fields.find? (Spelled contentLengthName ·) = some f)
    {digits : List UInt8} (hdigits : f.behind = 32 :: digits) {n : ℕ} (hn : Decimal digits n) :
    contentLength m = .error .badAlloc ∨ contentLength m = .ok (.ok (some (min (2 ^ 63 - 1) n))) := by
  unfold contentLength
  rcases Buffer.initEmpty_spec Buffer.built_idle with hbad | ⟨b, hb, hcontents⟩
  · exact Or.inl (by rw [hbad, error_bind])
  rw [hb, ok_bind]
  dsimp only
  rw [if_neg (fun h => h rfl)]
  rcases getHttpHeaderValue_computes block contentLengthName hm (Or.inr ⟨_, hcontents⟩) with
    hbad | ⟨⟨err, value⟩, hvalue, hfinds⟩
  · exact Or.inl (by rw [hbad, error_bind])
  unfold Finds at hfinds
  rw [hf] at hfinds
  obtain ⟨rfl, b', rfl, hsim⟩ := hfinds
  rw [hdigits, List.tail_cons] at hsim
  have hatoll := atoll_decimal (str_holds hsim) hn
  have hcast : ((min (2 ^ 63 - 1) (n : ℤ)) % 2 ^ 64).toNat = min (2 ^ 63 - 1) n := by omega
  rcases Buffer.finish_simulates hsim.1 false with hbad | ⟨b'', hfinish, -⟩
  · refine Or.inl ?_
    rw [hvalue, ok_bind]
    dsimp only
    rw [if_neg (fun h => h rfl), hatoll, ok_bind]
    simp only [pure_bind, hbad, error_bind]
  · refine Or.inr ?_
    rw [hvalue, ok_bind]
    dsimp only
    rw [if_neg (fun h => h rfl), hatoll, ok_bind, hcast]
    simp only [pure_bind, hfinish, ok_bind]
    rfl

/-- The body is read by the number that `atoll` gives. -/
theorem readHttpBody_computes {m : Cells UInt8} {n : ℕ}
    (hlength : contentLength m = .error .badAlloc ∨
      contentLength m = .ok (.ok (some (min (2 ^ 63 - 1) n))))
    (pContentType : Cells UInt8) {hmHttpMethod : HttpMethod} (hmethod : hmHttpMethod ≠ .get)
    {chunkRead : ChunkReadFunction} (hanswers : ∀ chunks, chunkRead chunks = true)
    (pbHttpBody : Option Buffer) {micros : ℕ} (hmicros : micros < 1000000) (sock : Socket) :
    contentLength m = .error .badAlloc ∨
      ∃ out, readHttpBody m pContentType hmHttpMethod (some chunkRead) pbHttpBody micros sock =
          .ok out ∧ BodyRead (min (2 ^ 63 - 1) n) sock.unread out := by
  rcases hlength with hbad | hlength
  · exact Or.inl hbad
  refine Or.inr ?_
  generalize hN : min (2 ^ 63 - 1) n = N at hlength ⊢
  have hlong : N < 2 ^ 63 := by omega
  have hbmod : (N : ℤ).bmod (2 ^ 64) = N := by
    rw [Int.bmod_def]
    omega
  unfold readHttpBody
  dsimp only
  rw [if_neg (by simp [hmethod]), hlength, ok_bind]
  dsimp only
  generalize hsize : (if N ≤ maxHttpBodyBufferSize then N + 1 else maxHttpBodyBufferSize) = size
  have hpos : 0 < size := by
    rw [← hsize]
    split
    · omega
    · decide
  obtain ⟨new, out, hrun, hpassed⟩ := bodyLoop_spec hanswers N pContentType hmicros hpos
    (s := ⟨sock, List.replicate size none, pbHttpBody, 0, 0, []⟩)
    List.length_replicate (Nat.lt_succ_self sock.unread.length) (Nat.zero_le _)
  have hchunks : out.2.chunks = new := hpassed.chunks.trans (List.nil_append new)
  refine ⟨out, hrun, ?_, ?_, ?_, hpassed.unread, hpassed.ends⟩
  · rw [hchunks, hpassed.numbered, List.range_eq_range']
  · intro c hc
    rw [hpassed.total c (hchunks ▸ hc), hbmod]
  · rw [hchunks]
    exact hpassed.bytes

/-- **The body loop reads a body of every length below 2^63**, however the socket splits the stream:
the callback gets the first `n` bytes in numbered chunks with the total `n`, no byte behind them is
taken, and an error ends a stream that is shorter.  Nothing is read or written outside the body
buffer. -/
theorem readHttpBody_reads (block : HeaderBlock) {m : Cells UInt8} (hm : Holds m block.text)
    {f : HeaderField} (hf : block.fields.find? (Spelled contentLengthName ·) = some f)
    {digits : List UInt8} (hdigits : f.behind = 32 :: digits) {n : ℕ} (hn : Decimal digits n)
    (hlong : n < 2 ^ 63) (pContentType : Cells UInt8) {hmHttpMethod : HttpMethod}
    (hmethod : hmHttpMethod ≠ .get) {chunkRead : ChunkReadFunction}
    (hanswers : ∀ chunks, chunkRead chunks = true) (pbHttpBody : Option Buffer) {micros : ℕ}
    (hmicros : micros < 1000000) (sock : Socket) :
    contentLength m = .error .badAlloc ∨
      ∃ out, readHttpBody m pContentType hmHttpMethod (some chunkRead) pbHttpBody micros sock =
          .ok out ∧ BodyRead n sock.unread out := by
  have hmin : min (2 ^ 63 - 1) n = n := by omega
  have h := readHttpBody_computes (contentLength_eq block hm hf hdigits hn) pContentType hmethod
    hanswers pbHttpBody hmicros sock
  rwa [hmin] at h

theorem oneBlank_blank : ∀ c ∈ ([32] : List UInt8), c = 32 ∨ c = 9 := by simp

/-- A field `Content-Length`. -/
def lengthField (digits : CStr) (h : 10 ∉ digits.bytes ∧ 13 ∉ digits.bytes) : HeaderField :=
  ⟨contentLengthName, [32], digits, oneBlank_blank, h⟩

/-- The length 3. -/
def threeField : HeaderField := lengthField ⟨[51], by decide⟩ (by decide)

/-- The length 2^63. -/
def hugeField : HeaderField := lengthField ⟨bytesOf "9223372036854775808", by decide⟩ (by decide)

/-- A socket whose reads give two bytes, with the end of the stream behind its bytes. -/
def byTwo (unread : List UInt8) : Socket := ⟨unread, fun _ => 2, 0, .readEofReached⟩

/-- Three bytes of four are read. -/
theorem readHttpBody_reads_three :
    contentLength (literal (oneField threeField).text) = .error .badAlloc ∨
      ∃ out, readHttpBody (literal (oneField threeField).text) [some 0] .post (some fun _ => true)
          none 0 (byTwo [97, 98, 99, 100]) = .ok out ∧ BodyRead 3 [97, 98, 99, 100] out :=
  readHttpBody_reads (oneField threeField) (literal_holds_string (oneField threeField).text_nulFree)
    (f := threeField) (List.find?_cons_of_pos (by decide))
    (show threeField.behind = 32 :: [51] by decide) (decimal_of_all (by decide)) (by decide)
    [some 0] (by decide) (fun _ => rfl) none (by decide) (byTwo [97, 98, 99, 100])

/-- Of 2^63 bytes the last one stays in the socket, as `atoll` has no such number. -/
theorem not_bodyRead_huge :
    ∃ out, readHttpBody (literal (oneField hugeField).text) [some 0] .post (some fun _ => true)
        none 0 (byTwo (List.replicate (2 ^ 63) 0)) = .ok out ∧
      ¬BodyRead (2 ^ 63) (List.replicate (2 ^ 63) 0) out := by
  have hcontent := contentLength_eq (oneField hugeField)
    (literal_holds_string (oneField hugeField).text_nulFree) (f := hugeField)
    (List.find?_cons_of_pos (by decide))
    (show hugeField.behind = 32 :: bytesOf "9223372036854775808" by decide) (n := 2 ^ 63)
    (decimal_of_all (by decide))
  have hok : (contentLength (literal (oneField hugeField).text)).isOk = true := by decide
  rcases readHttpBody_computes hcontent [some 0] (show HttpMethod.post ≠ .get by decide)
    (show ∀ chunks, (fun _ => true : ChunkReadFunction) chunks = true from fun _ => rfl) none
    (show 0 < 1000000 by decide) (byTwo (List.replicate (2 ^ 63) 0)) with hbad | ⟨out, hout, hread⟩
  · rw [hbad] at hok
    exact absurd hok (by simp [Except.isOk, Except.toBool])
  · refine ⟨out, hout, fun h => ?_⟩
    have hrest := congrArg List.length (hread.unread.symm.trans h.unread)
    have hlen : (byTwo (List.replicate (2 ^ 63) 0)).unread.length = 2 ^ 63 := List.length_replicate
    rw [List.length_drop, List.length_drop, hlen, List.length_replicate] at hrest
    omega

end WebUtility

end CatraLibraries
