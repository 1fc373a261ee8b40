/-
# One HTTP request

`WebUtility::readHttpHeaderAndBody` (`WebTools/src/WebUtility.cpp`) as the server calls it and a client
that posts: with a buffer for the header, one for the body and one for the cookie, no callback.

`Complete` are the connections that bring a request, `Incomplete` those that stop before its end; a
request with a body but no `Content-Length` is one of these.
-/
import CatraLibraries.WebTools.BodyLoop

namespace CatraLibraries

open Memory CString Substring

namespace WebUtility

/-! ### The code -/

/-- The errors of `readHttpHeaderAndBody`, by the part that they come from. -/
inductive HttpRequestError
  | errNoError
  | bufferSetBufferFailed
  | headerRead (err : HttpReadError)
  | headerParse (err : HttpHeaderError)
  | bodyRead (err : HttpBodyError)
  deriving DecidableEq

/-- The buffers of the server, and the method of the last request. -/
structure RequestBuffers where
  bHttpHeaderRequest : Buffer
  bHttpBodyRequest : Buffer
  bCookie : Buffer
  hmHttpMethod : HttpMethod

/-- The name `Cookie`. -/
def cookieName : FieldName :=
  ⟨⟨bytesOf "Cookie", by decide⟩, by decide, by decide, by decide, by decide⟩

/-- The name `Content-Type`. -/
def contentTypeName : FieldName :=
  ⟨⟨bytesOf "Content-Type", by decide⟩, by decide, by decide, by decide, by decide⟩

/-- What follows the header loop: the errors of the two searches are not looked at. -/
def parseAndReadBody (ulReceivingTimeoutInMicroSeconds : ℕ) (b : RequestBuffers) (sock : Socket) :
    Except Fault (HttpRequestError × RequestBuffers × Socket) := do
  let parsed ← parseHttpHeader b.bHttpHeaderRequest b.hmHttpMethod none none
  let b := { b with hmHttpMethod := parsed.hmHttpMethod }
  if parsed.err ≠ .errNoError then return (.headerParse parsed.err, b, sock)
  else
    let (_, pbCookie) ← getHttpHeaderValue (some b.bHttpHeaderRequest.str) (some cookieName.text)
      (some b.bCookie)
    let b := { b with bCookie := pbCookie.getD b.bCookie }
    let (_, bContentType) ← getHttpHeaderValue (some b.bHttpHeaderRequest.str)
      (some contentTypeName.text) (some .built)
    let (err, s) ← readHttpBody b.bHttpHeaderRequest.str (bContentType.getD .built).str
      b.hmHttpMethod none (some b.bHttpBodyRequest) ulReceivingTimeoutInMicroSeconds sock
    return (if err = .errNoError then .errNoError else .bodyRead err,
      { b with bHttpBodyRequest := s.pbHttpBody.getD b.bHttpBodyRequest }, s.sock)

/-- `readHttpHeaderAndBody`. -/
def readHttpHeaderAndBody (ulReceivingTimeoutInMicroSeconds : ℕ) (b : RequestBuffers) (sock : Socket) :
    Except Fault (HttpRequestError × RequestBuffers × Socket) := do
  let (err, pbHttpHeader) ← b.bHttpHeaderRequest.setBuffer (some [some 0]) (-1)
  let b := { b with bHttpHeaderRequest := pbHttpHeader }
  if err ≠ .errNoError then return (.bufferSetBufferFailed, b, sock)
  else
    let (err, pbHttpBody) ← b.bHttpBodyRequest.setBuffer (some [some 0]) (-1)
    let b := { b with bHttpBodyRequest := pbHttpBody }
    if err ≠ .errNoError then return (.bufferSetBufferFailed, b, sock)
    else
      let (err, pbHttpHeader, sock) ←
        readHeaderLoop (sock.unread.length + 1) b.bHttpHeaderRequest sock
      let b := { b with bHttpHeaderRequest := pbHttpHeader }
      if err ≠ .errNoError then return (.headerRead err, b, sock)
      else parseAndReadBody ulReceivingTimeoutInMicroSeconds b sock

/-! ### The header -/

variable {sock : Socket} {blocks : List (List UInt8)} {b : Buffer} {s : List UInt8}

/-- A terminator that the peeked bytes do not reach is not found in them. -/
theorem strstr_peeked_none (hpeeked : sock.peeked.length < maxHttpHeaderBufferSize ∨ 0 ∈ sock.peeked)
    (hmax : sock.peeked.length ≤ maxHttpHeaderBufferSize)
    (hnone : ∀ p, findSub crlfcrlf sock.unread = some p → sock.peeked.length < p + 4) :
    strstr (localResponse sock.peeked) crlfcrlf = .ok none := by
  have hvisible : findSub crlfcrlf (visible sock.peeked) = none := by
    by_contra hsome
    obtain ⟨p, hp⟩ := Option.ne_none_iff_exists'.mp hsome
    obtain ⟨hp, hle⟩ := findSub_visible_peeked.mp hp
    exact absurd (hle.trans (visible_isPrefixOf sock.peeked).length_le) (Nat.not_le.mpr (hnone p hp))
  rw [strstr_localResponse hmax, hvisible]
  simp only [if_pos hpeeked]

/-- **A header without zero bytes that is split well is read**, whatever is behind it.  The induction is
on the blocks: each of them is appended, or gets no memory. -/
theorem readHeaderLoop_reads (h : SplitsWell sock blocks) {i fuel : ℕ}
    (hfind : findSub crlfcrlf sock.unread = some i) (hfree : 0 ∉ sock.unread.take (i + 4))
    (hb : Buffer.Contents b s) (hs : 0 ∉ s) (hfuel : sock.unread.length < fuel) :
    readHeaderLoop fuel b sock = .error .badAlloc ∨
      ∃ b' sock', readHeaderLoop fuel b sock = .ok (.errNoError, b', sock') ∧
        Buffer.Simulates b' (some (s ++ sock.unread.take (i + 4))) ∧
        sock'.unread = sock.unread.drop (i + 4) := by
  induction h generalizing b s i fuel with
  | @last sock j hfind' hblock hremove =>
    obtain rfl : i = j := Option.some.inj (hfind.symm.trans hfind')
    obtain ⟨fuel, rfl⟩ := Nat.exists_eq_add_one_of_ne_zero (Nat.ne_of_gt (Nat.zero_lt_of_lt hfuel))
    have hne := ne_nil_of_findSub hfind
    obtain ⟨-, hmax, -⟩ := Socket.length_peeked hne
    have hvis := (visible_isPrefixOf sock.peeked).length_le
    have hstr : strstr (localResponse sock.peeked) crlfcrlf = .ok (some i) := by
      rw [strstr_localResponse hmax, findSub_visible_peeked.mpr ⟨hfind, hblock⟩]
    obtain ⟨-, hcongr⟩ := append_localResponse b hne (n := i + 4) (by omega)
    rw [readHeaderLoop_step fuel b hne, hstr, ok_bind]
    dsimp only
    rw [hcongr]
    rcases Buffer.append_contents hb hs (Buffer.take_map_some (sock.unread.take (i + 4))) (by simp) with
      hbad | ⟨b', hb', hc⟩
    · exact Or.inl (by rw [hbad, error_bind])
    · refine Or.inr ⟨b', sock.afterRemove (i + 4), by rw [hb', ok_bind]; rfl, ⟨hc, ?_⟩, ?_⟩
      · rw [List.mem_append, not_or]
        exact ⟨hs, hfree⟩
      · show sock.unread.drop (sock.afterPeek.readLength (i + 4)) = _
        rw [hremove]
  | @more sock j blocks hfind' hblock hzero hremove hrest ih =>
    obtain rfl : i = j := Option.some.inj (hfind.symm.trans hfind')
    obtain ⟨fuel, rfl⟩ := Nat.exists_eq_add_one_of_ne_zero (Nat.ne_of_gt (Nat.zero_lt_of_lt hfuel))
    have hne := ne_nil_of_findSub hfind
    obtain ⟨hpos, hmax, hle⟩ := Socket.length_peeked hne
    have hstr : strstr (localResponse sock.peeked) crlfcrlf = .ok none :=
      strstr_peeked_none hzero hmax fun p hp => by
        obtain rfl : p = i := Option.some.inj (hp.symm.trans hfind)
        omega
    obtain ⟨-, hcongr⟩ := append_localResponse b hne (n := sock.peeked.length) le_rfl
    rw [← sock.peeked_eq_take] at hcongr
    have hunread : (sock.afterRemove sock.peeked.length).unread
        = sock.unread.drop sock.peeked.length := by
      show sock.unread.drop (sock.afterPeek.readLength _) = _
      rw [hremove]
    have hcut : sock.unread.take (i + 4) = sock.peeked ++
        (sock.unread.drop sock.peeked.length).take (i - sock.peeked.length + 4) := by
      conv_rhs => lhs; rw [sock.peeked_eq_take]
      rw [← List.take_add]
      exact congrArg sock.unread.take (by omega)
    rw [hcut, List.mem_append, not_or] at hfree
    rw [readHeaderLoop_step fuel b hne, hstr, ok_bind]
    dsimp only
    rw [hcongr]
    rcases Buffer.append_contents hb hs (Buffer.take_map_some sock.peeked) (by simp) with
      hbad | ⟨b', hb', hc⟩
    · exact Or.inl (by rw [hbad, error_bind])
    · have hfree' : 0 ∉ s ++ sock.peeked := by
        rw [List.mem_append, not_or]
        exact ⟨hs, hfree.1⟩
      have hdrop : sock.unread.drop (i + 4) =
          (sock.unread.drop sock.peeked.length).drop (i - sock.peeked.length + 4) := by
        rw [List.drop_drop]
        exact congrArg sock.unread.drop (by omega)
      rw [hb', ok_bind]
      dsimp only
      rw [if_neg (fun h => h rfl), hcut, hdrop, ← List.append_assoc, ← hunread]
      refine ih ?_ (hunread ▸ hfree.2) hc hfree' ?_
      · rw [hunread]
        exact findSub_drop hfind hblock
      · rw [hunread, List.length_drop]
        omega

/-- What a loop that ended has left: the buffer with these bytes. -/
def BodyKept (s : List UInt8) (out : HttpBodyError × BodyState) : Prop :=
  ∃ b, out.2.pbHttpBody = some b ∧ Buffer.Contents b s

/-- A block without zero bytes goes into the buffer. -/
theorem handleBlock_appends (ullContentLength : Option ℕ) (pContentType : Cells UInt8) {x : BodyState}
    (hb : x.pbHttpBody = some b) (hc : Buffer.Contents b s) (hs : 0 ∉ s) (block : List UInt8)
    {rest : Cells UInt8} (hx : x.pLocalHttpBodyResponse = block.map some ++ rest) :
    handleBlock none ullContentLength pContentType block.length x = .error .badAlloc ∨
      ∃ b', handleBlock none ullContentLength pContentType block.length x =
          .ok (.errNoError, { x with pbHttpBody := some b' }) ∧ Buffer.Contents b' (s ++ block) := by
  have htake : x.pLocalHttpBodyResponse.take block.length = block.map some := by
    rw [hx]
    exact List.take_left' (List.length_map _)
  have hlen : block.length ≤ x.pLocalHttpBodyResponse.length := by
    rw [hx, List.length_append, List.length_map]
    exact Nat.le_add_right _ _
  unfold handleBlock
  dsimp only
  rw [hb]
  dsimp only
  rcases Buffer.append_contents hc hs htake hlen with hbad | ⟨b', hb', hc'⟩
  · exact Or.inl (by rw [hbad, error_bind])
  · refine Or.inr ⟨b', ?_, hc'⟩
    rw [hb', ok_bind]
    rfl

/-- How many bytes the loop asks for; `none` at the end of the body. -/
def nextLength (ullContentLength : Option ℕ) (size ullCurrentBodyLength : ℕ) : Option ℕ :=
  match ullContentLength with
  | some n =>
    if ullCurrentBodyLength < n then
      some (if n - ullCurrentBodyLength > size then size else n - ullCurrentBodyLength)
    else none
  | none => some size

/-- The bytes of the body that are still to come, as far as its length is known. -/
def remaining (ullContentLength : Option ℕ) (ullCurrentBodyLength : ℕ) (unread : List UInt8) :
    List UInt8 :=
  match ullContentLength with
  | some n => unread.take (n - ullCurrentBodyLength)
  | none => unread

/-- The end is good: the length is known, and there are so many bytes. -/
def Suffices (ullContentLength : Option ℕ) (ullCurrentBodyLength : ℕ) (unread : List UInt8) : Prop :=
  ∃ n, ullContentLength = some n ∧ n - ullCurrentBodyLength ≤ unread.length

/-- Some bytes of the body are read. -/
theorem remaining_step {ullContentLength : Option ℕ} {size ullCurrentBodyLength len k : ℕ}
    (hlen : nextLength ullContentLength size ullCurrentBodyLength = some len) (hk : k ≤ len)
    (unread : List UInt8) :
    remaining ullContentLength ullCurrentBodyLength unread =
      unread.take k ++
        remaining ullContentLength (ullCurrentBodyLength + k) (unread.drop k) := by
  unfold remaining
  cases ullContentLength with
  | none => exact (List.take_append_drop k unread).symm
  | some n =>
    unfold nextLength at hlen
    dsimp only at hlen ⊢
    split at hlen
    · have hle : len ≤ n - ullCurrentBodyLength := by
        have hlen := Option.some.inj hlen
        split at hlen
        · omega
        · omega
      have hsum : n - ullCurrentBodyLength = k + (n - (ullCurrentBodyLength + k)) := by omega
      rw [hsum, List.take_add]
    · cases hlen

theorem suffices_step {ullContentLength : Option ℕ} {ullCurrentBodyLength k : ℕ}
    {unread : List UInt8} (hk : k ≤ unread.length) :
    Suffices ullContentLength (ullCurrentBodyLength + k) (unread.drop k) ↔
      Suffices ullContentLength ullCurrentBodyLength unread := by
  unfold Suffices
  refine exists_congr fun n => and_congr_right fun _ => ?_
  rw [List.length_drop]
  omega

section Turn

variable {ullContentLength : Option ℕ} {pContentType : Cells UInt8} {micros size fuel len : ℕ}
  {x : BodyState}

/-- The loop stops at the end of the body. -/
theorem bodyLoop_stops (hnext : nextLength ullContentLength size x.ullCurrentBodyLength = none) :
    bodyLoop none ullContentLength pContentType micros size (fuel + 1) x = .ok (.errNoError, x) := by
  unfold nextLength at hnext
  unfold bodyLoop
  cases ullContentLength with
  | none => cases hnext
  | some n =>
    dsimp only at hnext ⊢
    by_cases hmore : x.ullCurrentBodyLength < n
    · rw [if_pos hmore] at hnext
      cases hnext
    · rw [if_neg hmore]

/-- A read that fails ends the loop. -/
theorem bodyLoop_readFails
    (hnext : nextLength ullContentLength size x.ullCurrentBodyLength = some len)
    {err : HttpBodyError} {buffer : Cells UInt8} {sock : Socket}
    (hread : readBlock micros x.pLocalHttpBodyResponse len x.sock = .ok (.error err, buffer, sock)) :
    bodyLoop none ullContentLength pContentType micros size (fuel + 1) x =
      .ok (err, { x with pLocalHttpBodyResponse := buffer, sock := sock }) := by
  unfold nextLength at hnext
  unfold bodyLoop
  cases ullContentLength with
  | none =>
    obtain rfl := Option.some.inj hnext
    dsimp only
    rw [hread]
    rfl
  | some n =>
    dsimp only at hnext ⊢
    rw [hnext]
    dsimp only
    rw [hread]
    rfl

/-- A block is read and handled, and the loop goes on. -/
theorem bodyLoop_block
    (hnext : nextLength ullContentLength size x.ullCurrentBodyLength = some len)
    {k : ℕ} {buffer : Cells UInt8} {sock : Socket}
    (hread : readBlock micros x.pLocalHttpBodyResponse len x.sock = .ok (.ok k, buffer, sock))
    {y : Except Fault BodyState}
    (hhandled : handleBlock none ullContentLength pContentType k
      { x with pLocalHttpBodyResponse := buffer, sock := sock } =
        y.map fun y => (HttpBodyError.errNoError, y)) :
    bodyLoop none ullContentLength pContentType micros size (fuel + 1) x =
      y.bind fun y => bodyLoop none ullContentLength pContentType micros size fuel
        { y with ullCurrentBodyLength := y.ullCurrentBodyLength + k } := by
  unfold nextLength at hnext
  conv_lhs => unfold bodyLoop
  cases ullContentLength with
  | none =>
    obtain rfl := Option.some.inj hnext
    dsimp only
    rw [hread, ok_bind]
    dsimp only
    rw [hhandled]
    cases y with
    | error e => rfl
    | ok y =>
      rw [Except.map, ok_bind]
      dsimp only
      rw [if_neg (fun h => h rfl)]
      rfl
  | some n =>
    dsimp only at hnext ⊢
    rw [hnext]
    dsimp only
    rw [hread, ok_bind]
    dsimp only
    rw [hhandled]
    cases y with
    | error e => rfl
    | ok y =>
      rw [Except.map, ok_bind]
      dsimp only
      rw [if_neg (fun h => h rfl)]
      rfl

end Turn

/-- **The loop into a buffer**: the bytes of the body are appended, up to its length or to the end of
the stream; the end is good just when the length is known and there are so many. -/
theorem bodyLoop_buffer (ullContentLength : Option ℕ) (pContentType : Cells UInt8) {micros : ℕ}
    (hmicros : micros < 1000000) {size : ℕ} (hsize : 0 < size) {fuel : ℕ} {x : BodyState}
    (hbuffer : x.pLocalHttpBodyResponse.length = size) (hfuel : x.sock.unread.length < fuel)
    (hb : x.pbHttpBody = some b) (hc : Buffer.Contents b s) (hs : 0 ∉ s)
    (hfree : 0 ∉ remaining ullContentLength x.ullCurrentBodyLength x.sock.unread) :
    bodyLoop none ullContentLength pContentType micros size fuel x = .error .badAlloc ∨
      ∃ out, bodyLoop none ullContentLength pContentType micros size fuel x = .ok out ∧
        BodyKept (s ++ remaining ullContentLength x.ullCurrentBodyLength x.sock.unread) out ∧
        (out.1 = .errNoError ↔ Suffices ullContentLength x.ullCurrentBodyLength x.sock.unread) := by
  induction fuel generalizing x b s with
  | zero => exact absurd hfuel (Nat.not_lt_zero _)
  | succ fuel ih =>
    cases hnext : nextLength ullContentLength size x.ullCurrentBodyLength with
    | none =>
      -- the body is complete
      obtain ⟨n, rfl, hn⟩ : ∃ n, ullContentLength = some n ∧ n ≤ x.ullCurrentBodyLength := by
        unfold nextLength at hnext
        cases ullContentLength with
        | none => cases hnext
        | some n =>
          refine ⟨n, rfl, ?_⟩
          dsimp only at hnext
          split at hnext
          · cases hnext
          · omega
      have hnone : remaining (some n) x.ullCurrentBodyLength x.sock.unread = [] := by
        unfold remaining
        dsimp only
        rw [Nat.sub_eq_zero_of_le hn, List.take_zero]
      rw [hnone, List.append_nil, bodyLoop_stops hnext]
      refine Or.inr ⟨_, rfl, ⟨b, hb, hc⟩, iff_of_true rfl ⟨n, rfl, ?_⟩⟩
      omega
    | some len =>
      have hbounds : 0 < len ∧ len ≤ size := by
        unfold nextLength at hnext
        cases ullContentLength with
        | none =>
          obtain rfl := Option.some.inj hnext
          exact ⟨hsize, Nat.le_refl _⟩
        | some n =>
          dsimp only at hnext
          split at hnext
          · have hnext := Option.some.inj hnext
            split at hnext
            · omega
            · omega
          · cases hnext
      obtain ⟨hpos, hfits⟩ := hbounds
      by_cases hnil : x.sock.unread = []
      · -- the stream has ended
        obtain ⟨err, herr, hread⟩ := readBlock_ended hmicros x.pLocalHttpBodyResponse hpos hnil
        have hnone : remaining ullContentLength x.ullCurrentBodyLength x.sock.unread = [] := by
          rw [hnil]
          cases ullContentLength with
          | none => rfl
          | some n => exact List.take_nil
        rw [bodyLoop_readFails hnext hread, hnone, List.append_nil]
        refine Or.inr ⟨_, rfl, ⟨b, hb, hc⟩, iff_of_false herr ?_⟩
        rintro ⟨n, rfl, hn⟩
        rw [hnil] at hn
        unfold nextLength at hnext
        dsimp only at hnext
        split at hnext
        · rw [List.length_nil] at hn
          omega
        · cases hnext
      · obtain ⟨rest, hrest, hread⟩ := readBlock_ready hmicros hpos (hbuffer ▸ hfits) hnil
        obtain ⟨hk, hklen, hkthere⟩ := x.sock.readLength_le hpos hnil
        generalize x.sock.readLength len = k at hrest hread hk hklen hkthere
        have hblock : (x.sock.unread.take k).length = k := List.length_take_of_le hkthere
        have hstep := remaining_step hnext hklen x.sock.unread
        rw [hstep, List.mem_append, not_or] at hfree
        have hhandled := handleBlock_appends ullContentLength pContentType
          (x := { x with
            pLocalHttpBodyResponse := (x.sock.unread.take k).map some ++ rest
            sock := { x.sock with unread := x.sock.unread.drop k, reads := x.sock.reads + 1 } })
          hb hc hs (x.sock.unread.take k) rfl
        rw [hblock] at hhandled
        rcases hhandled with hbad | ⟨b', hb', hc'⟩
        · exact Or.inl (bodyLoop_block hnext hread (y := .error .badAlloc) hbad)
        rw [bodyLoop_block hnext hread (y := .ok _) hb', hstep]
        have hrec := ih
          (x := ⟨{ x.sock with unread := x.sock.unread.drop k, reads := x.sock.reads + 1 },
            (x.sock.unread.take k).map some ++ rest, some b', x.ulChunkReadIndex,
            x.ullCurrentBodyLength + k, x.chunks⟩)
          (by rw [List.length_append, List.length_map, hblock, hrest, hbuffer])
          (by
            show (x.sock.unread.drop k).length < fuel
            rw [List.length_drop]
            omega)
          rfl hc'
          (by
            rw [List.mem_append, not_or]
            exact ⟨hs, hfree.1⟩)
          hfree.2
        rcases hrec with hbad | ⟨out, hrun, hkept, hends⟩
        · exact Or.inl hbad
        · refine Or.inr ⟨out, hrun, ?_, ?_⟩
          · rwa [List.append_assoc] at hkept
          · rw [hends]
            exact suffices_step hkthere

/-- **A body goes into the buffer**, up to its length or to the end of the stream. -/
theorem readHttpBody_buffer {m : Cells UInt8} {ullContentLength : Option ℕ}
    (hlength : contentLength m = .error .badAlloc ∨ contentLength m = .ok (.ok ullContentLength))
    (pContentType : Cells UInt8) {hmHttpMethod : HttpMethod} (hmethod : hmHttpMethod ≠ .get)
    {b : Buffer} (hb : Buffer.Contents b []) {micros : ℕ} (hmicros : micros < 1000000) {sock : Socket}
    (hfree : 0 ∉ remaining ullContentLength 0 sock.unread) :
    readHttpBody m pContentType hmHttpMethod none (some b) micros sock = .error .badAlloc ∨
      ∃ out, readHttpBody m pContentType hmHttpMethod none (some b) micros sock = .ok out ∧
        BodyKept (remaining ullContentLength 0 sock.unread) out ∧
        (out.1 = .errNoError ↔ Suffices ullContentLength 0 sock.unread) := by
  unfold readHttpBody
  dsimp only
  rw [if_neg (by simp [hmethod])]
  rcases hlength with hbad | hlength
  · exact Or.inl (by rw [hbad, error_bind])
  rw [hlength, ok_bind]
  dsimp only
  cases ullContentLength with
  | none =>
    exact bodyLoop_buffer none pContentType hmicros (by decide)
      (x := ⟨sock, List.replicate maxHttpBodyBufferSize none, some b, 0, 0, []⟩)
      List.length_replicate (Nat.lt_succ_self _) rfl hb List.not_mem_nil hfree
  | some n =>
    dsimp only
    generalize hsize : (if n ≤ maxHttpBodyBufferSize then n + 1 else maxHttpBodyBufferSize) = size
    have hpos : 0 < size := by
      rw [← hsize]
      split
      · omega
      · decide
    exact bodyLoop_buffer (some n) pContentType hmicros hpos
      (x := ⟨sock, List.replicate size none, some b, 0, 0, []⟩)
      List.length_replicate (Nat.lt_succ_self _) rfl hb List.not_mem_nil hfree

/-! ### The end of a header block -/

/-- Bytes without a carriage return are passed over. -/
theorem findSub_crlfcrlf_skip {x : List UInt8} (hx : 13 ∉ x) (s : List UInt8) :
    findSub crlfcrlf (x ++ s) = (findSub crlfcrlf s).map (· + x.length) := by
  induction x with
  | nil => simp
  | cons c x ih =>
    rw [List.mem_cons, not_or] at hx
    have hpre : ¬crlfcrlf <+: c :: (x ++ s) := fun h => hx.1 (List.cons_prefix_cons.mp h).1
    rw [List.cons_append, findSub, if_neg hpre, ih hx.2, Option.map_map]
    rfl

/-- So is the end of a line that is not the last one. -/
theorem findSub_crlfcrlf_line {c : UInt8} (hc : c ≠ 13) (s : List UInt8) :
    findSub crlfcrlf (13 :: 10 :: c :: s) = (findSub crlfcrlf (c :: s)).map (· + 2) := by
  have hpre : ¬crlfcrlf <+: 13 :: 10 :: c :: s := by
    simp only [crlfcrlf, List.cons_prefix_cons, not_and]
    exact fun _ _ h => absurd h.symm hc
  have hpre' : ¬crlfcrlf <+: 10 :: c :: s := by
    simp [crlfcrlf, List.cons_prefix_cons]
  rw [findSub, if_neg hpre, findSub, if_neg hpre', Option.map_map]
  rfl

/-- Behind the last line the terminator is complete. -/
theorem findSub_fields (fields : List HeaderField) (rest : List UInt8) :
    findSub crlfcrlf (13 :: 10 :: (fields.flatMap (fun f => f.text ++ [13, 10]) ++ 13 :: 10 :: rest)) =
      some (fields.flatMap fun f => f.text ++ [13, 10]).length := by
  induction fields with
  | nil => simp [findSub, crlfcrlf]
  | cons f fields ih =>
    have htext : 13 ∉ f.text := by
      have hblanks : 13 ∉ f.blanks := fun h => by
        rcases f.blanks_blank 13 h with h | h
        · exact absurd h (by decide)
        · exact absurd h (by decide)
      simp only [HeaderField.text, HeaderField.behind, List.mem_append, List.mem_cons, not_or]
      exact ⟨f.name.line.2, by decide, hblanks, f.value_line.2⟩
    have hsplit : (f :: fields).flatMap (fun f => f.text ++ [13, 10]) ++ 13 :: 10 :: rest =
        f.text ++ 13 :: 10 ::
          (fields.flatMap (fun f => f.text ++ [13, 10]) ++ 13 :: 10 :: rest) := by
      simp
    obtain ⟨c, t, hc⟩ : ∃ c t, f.text = c :: t := by
      rcases hname : f.name.text.bytes with _ | ⟨c, t⟩
      · exact absurd hname f.name.nonempty
      · exact ⟨c, t ++ 58 :: f.behind, by rw [HeaderField.text, hname, List.cons_append]⟩
    have hne : c ≠ 13 := fun h => htext (by rw [hc, h]; exact List.mem_cons_self)
    rw [hsplit, hc, List.cons_append, findSub_crlfcrlf_line hne, ← List.cons_append, ← hc,
      findSub_crlfcrlf_skip htext, ih, List.flatMap_cons, List.length_append, List.length_append]
    exact congrArg some (by simp only [List.length_cons, List.length_nil]; omega)

/-- The text of a block that is closed. -/
theorem HeaderBlock.text_eq (block : HeaderBlock) (hclosed : block.closed = true) :
    block.text = block.startLine.bytes ++
      13 :: 10 :: (block.fields.flatMap (fun f => f.text ++ [13, 10]) ++ [13, 10]) := by
  rw [HeaderBlock.text, HeaderBlock.lines, hclosed]
  simp [List.flatMap_map]

/-- **The first terminator is the end of the block.** -/
theorem findSub_block (block : HeaderBlock) (hclosed : block.closed = true) (rest : List UInt8) :
    ∃ i, findSub crlfcrlf (block.text ++ rest) = some i ∧ i + 4 = block.text.length := by
  have htext := block.text_eq hclosed
  refine ⟨block.startLine.bytes.length +
    (block.fields.flatMap fun f => f.text ++ [13, 10]).length, ?_, ?_⟩
  · rw [htext, List.append_assoc, findSub_crlfcrlf_skip block.startLine_line.2]
    have h := findSub_fields block.fields rest
    simp only [List.cons_append, List.append_assoc, List.nil_append]
    rw [h]
    exact congrArg some (Nat.add_comm _ _)
  · rw [htext]
    simp only [List.length_append, List.length_cons, List.length_nil]
    omega

/-! ### Connections -/

/-- **The head of a message**, as `parseHttpHeader` takes it: a request, or the answer to one, which has
no method. -/
structure Head where
  text : List UInt8
  hmHttpMethod : HttpMethod
  nulFree : 0 ∉ text
  parsed : ∀ (b : Buffer) (hm : HttpMethod), Buffer.Simulates b (some text) →
    parseHttpHeader b hm none none = .error .badAlloc ∨
      ∃ pbURL pbHeaders,
        parseHttpHeader b hm none none = .ok ⟨.errNoError, hmHttpMethod, pbURL, pbHeaders⟩

theorem HttpRequest.parsed (r : HttpRequest) (b : Buffer) (hm : HttpMethod)
    (hb : Buffer.Simulates b (some r.text)) :
    parseHttpHeader b hm none none = .error .badAlloc ∨ ∃ pbURL pbHeaders,
      parseHttpHeader b hm none none
        = .ok ⟨.errNoError, recognised r.method.bytes, pbURL, pbHeaders⟩ := by
  have hnone : ∀ b ∈ (none : Option Buffer), Usable b := fun _ h => by cases h
  rcases parseHttpHeader_computes r hb hm hnone hnone with hbad | ⟨pbURL, pbHeaders, hparse, -, -⟩
  · exact Or.inl hbad
  · exact Or.inr ⟨pbURL, pbHeaders, hparse⟩

/-- The head of a request. -/
def HttpRequest.head (r : HttpRequest) : Head :=
  ⟨r.text, recognised r.method.bytes, r.text_nulFree, r.parsed⟩

/-- What the server makes of a request. -/
structure ReceivedRequest where
  hmHttpMethod : HttpMethod
  header : List UInt8
  body : List UInt8
  cookie : List UInt8
  deriving DecidableEq, Repr

/-- The cookie of a block, empty where it has none. -/
def cookieOf (block : HeaderBlock) : List UInt8 :=
  ((block.fields.find? (Spelled cookieName ·)).map (·.behind.tail)).getD []

/-- The length that a block gives for its body. -/
def LengthIs (block : HeaderBlock) (n : ℕ) : Prop :=
  ∃ f digits, block.fields.find? (Spelled contentLengthName ·) = some f ∧
    f.behind = 32 :: digits ∧ Decimal digits n

/-- **The header of a request comes**, in reads that cut it well, and `rest` behind it. -/
structure HeaderComes (sock : Socket) (r : Head) (block : HeaderBlock) (rest : List UInt8) :
    Prop where
  same : block.text = r.text
  closed : block.closed = true
  unread : sock.unread = r.text ++ rest
  splits : ∃ blocks, SplitsWell sock blocks

/-- **A connection that brings a request**: a GET without its body, or another request with a body of
the length that the header gives. -/
inductive Complete : Socket → ReceivedRequest → Prop
  | get {sock : Socket} {r : Head} {block : HeaderBlock} {rest : List UInt8}
      (hheader : HeaderComes sock r block rest) (hmethod : r.hmHttpMethod = .get) :
      Complete sock ⟨.get, r.text, [], cookieOf block⟩
  | body {sock : Socket} {r : Head} {block : HeaderBlock} {rest : List UInt8} {n : ℕ}
      (hheader : HeaderComes sock r block rest) (hmethod : r.hmHttpMethod ≠ .get)
      (hlength : LengthIs block n) (hlong : n < 2 ^ 63) (hn : n ≤ rest.length)
      (hfree : 0 ∉ rest.take n) :
      Complete sock ⟨r.hmHttpMethod, r.text, rest.take n, cookieOf block⟩

/-- **A connection that stops before the end of a request**: in its header, in its body, or anywhere in
a body whose length it does not give. -/
inductive Incomplete : Socket → Prop
  | header {sock : Socket} (hfree : 0 ∉ sock.unread)
      (hshort : sock.unread.length < maxHttpHeaderBufferSize)
      (hnone : ¬crlfcrlf <:+: sock.unread) : Incomplete sock
  | body {sock : Socket} {r : Head} {block : HeaderBlock} {rest : List UInt8} {n : ℕ}
      (hheader : HeaderComes sock r block rest) (hmethod : r.hmHttpMethod ≠ .get)
      (hlength : LengthIs block n) (hlong : n < 2 ^ 63) (hn : rest.length < n) (hfree : 0 ∉ rest) :
      Incomplete sock
  | noLength {sock : Socket} {r : Head} {block : HeaderBlock} {rest : List UInt8}
      (hheader : HeaderComes sock r block rest) (hmethod : r.hmHttpMethod ≠ .get)
      (hnone : block.fields.find? (Spelled contentLengthName ·) = none) (hfree : 0 ∉ rest) :
      Incomplete sock

/-- The buffers can be used for the next request. -/
structure RequestBuffers.Ready (b : RequestBuffers) : Prop where
  header : Usable b.bHttpHeaderRequest
  body : Usable b.bHttpBodyRequest
  cookie : Usable b.bCookie

/-- The buffers hold a request. -/
structure RequestBuffers.Hold (b : RequestBuffers) (d : ReceivedRequest) : Prop where
  method : b.hmHttpMethod = d.hmHttpMethod
  header : Buffer.Simulates b.bHttpHeaderRequest (some d.header)
  body : Buffer.Contents b.bHttpBodyRequest d.body
  cookie : Buffer.Simulates b.bCookie (some d.cookie)

theorem cookieOf_finds {block : HeaderBlock} {out : HeaderValueError × Option Buffer}
    (h : Finds block cookieName out) :
    ∃ b, out.2 = some b ∧ Buffer.Simulates b (some (cookieOf block)) := by
  unfold Finds at h
  unfold cookieOf
  cases hfind : block.fields.find? (Spelled cookieName ·) with
  | none =>
    rw [hfind] at h
    exact h.2
  | some f =>
    rw [hfind] at h
    exact h.2

/-- **Behind the header**: the method, the cookie and the body are those of the request. -/
theorem parseAndReadBody_spec {r : Head} {block : HeaderBlock} (hsame : block.text = r.text)
    {b : RequestBuffers} (hheader : Buffer.Simulates b.bHttpHeaderRequest (some r.text))
    (hcookie : Usable b.bCookie) (micros : ℕ) (sock : Socket) :
    parseAndReadBody micros b sock = .error .badAlloc ∨
      ∃ bCookie pContentType, Buffer.Simulates bCookie (some (cookieOf block)) ∧
        parseAndReadBody micros b sock =
          (readHttpBody b.bHttpHeaderRequest.str pContentType r.hmHttpMethod none
            (some b.bHttpBodyRequest) micros sock).map fun out =>
              (if out.1 = .errNoError then .errNoError else .bodyRead out.1,
                ⟨b.bHttpHeaderRequest, out.2.pbHttpBody.getD b.bHttpBodyRequest, bCookie,
                  r.hmHttpMethod⟩, out.2.sock) := by
  have hm : Holds b.bHttpHeaderRequest.str block.text := by
    rw [hsame]
    exact str_holds hheader
  unfold parseAndReadBody
  rcases r.parsed _ b.hmHttpMethod hheader with hbad | ⟨pbURL, pbHeaders, hparse⟩
  · exact Or.inl (by rw [hbad, error_bind])
  rcases getHttpHeaderValue_computes block cookieName hm hcookie with hbad | ⟨out, hvalue, hfinds⟩
  · refine Or.inl ?_
    rw [hparse, ok_bind]
    dsimp only
    rw [if_neg (fun h => h rfl), hbad, error_bind]
  obtain ⟨bCookie, hout, hsim⟩ := cookieOf_finds hfinds
  rcases getHttpHeaderValue_computes block contentTypeName hm (Or.inl Buffer.built_idle) with
    hbad | ⟨outType, htype, -⟩
  · refine Or.inl ?_
    rw [hparse, ok_bind]
    dsimp only
    rw [if_neg (fun h => h rfl), hvalue, ok_bind, hbad, error_bind]
  refine Or.inr ⟨bCookie, (outType.2.getD .built).str, hsim, ?_⟩
  rw [hparse, ok_bind]
  dsimp only
  rw [if_neg (fun h => h rfl), hvalue, ok_bind, htype, ok_bind, hout]
  dsimp only [Option.getD_some]
  rcases readHttpBody b.bHttpHeaderRequest.str (outType.2.getD .built).str
    r.hmHttpMethod none (some b.bHttpBodyRequest) micros sock with e | ⟨err, s⟩
  · rfl
  · rfl

section Whole

variable {b : RequestBuffers} {sock : Socket} {micros : ℕ}

/-- The two buffers are emptied, and the header loop decides. -/
theorem readHttpHeaderAndBody_eq (micros : ℕ) (sock : Socket) (hb : b.Ready) :
    readHttpHeaderAndBody micros b sock = .error .badAlloc ∨
      ∃ pbHttpHeader pbHttpBody, Buffer.Contents pbHttpHeader [] ∧ Buffer.Contents pbHttpBody [] ∧
        readHttpHeaderAndBody micros b sock =
          (readHeaderLoop (sock.unread.length + 1) pbHttpHeader sock).bind fun x =>
            if x.1 ≠ .errNoError then
              .ok (.headerRead x.1, ⟨x.2.1, pbHttpBody, b.bCookie, b.hmHttpMethod⟩, x.2.2)
            else parseAndReadBody micros ⟨x.2.1, pbHttpBody, b.bCookie, b.hmHttpMethod⟩ x.2.2 := by
  unfold readHttpHeaderAndBody
  rcases Buffer.setBuffer_clears hb.header with hbad | ⟨pbHttpHeader, hset, hc, -⟩
  · exact Or.inl (by rw [hbad, error_bind])
  rcases Buffer.setBuffer_clears hb.body with hbad | ⟨pbHttpBody, hset', hc', -⟩
  · refine Or.inl ?_
    rw [hset, ok_bind]
    dsimp only
    rw [if_neg (fun h => h rfl), hbad, error_bind]
  refine Or.inr ⟨pbHttpHeader, pbHttpBody, hc, hc', ?_⟩
  rw [hset, ok_bind]
  dsimp only
  rw [if_neg (fun h => h rfl), hset', ok_bind]
  dsimp only
  rw [if_neg (fun h => h rfl)]
  rfl

/-- The header is read, and the body is what is left to do. -/
theorem HeaderComes.read {r : Head} {block : HeaderBlock} {rest : List UInt8}
    (h : HeaderComes sock r block rest) (hb : b.Ready) (micros : ℕ) :
    readHttpHeaderAndBody micros b sock = .error .badAlloc ∨
      ∃ hdr pbHttpBody sock' bCookie pContentType, Buffer.Simulates hdr (some r.text) ∧
        Buffer.Contents pbHttpBody [] ∧ Buffer.Simulates bCookie (some (cookieOf block)) ∧
        sock'.unread = rest ∧
        readHttpHeaderAndBody micros b sock =
          (readHttpBody hdr.str pContentType r.hmHttpMethod none (some pbHttpBody)
            micros sock').map fun out =>
              (if out.1 = .errNoError then .errNoError else .bodyRead out.1,
                ⟨hdr, out.2.pbHttpBody.getD pbHttpBody, bCookie, r.hmHttpMethod⟩,
                out.2.sock) := by
  obtain ⟨blocks, hsplits⟩ := h.splits
  obtain ⟨i, hfind, hi⟩ := findSub_block block h.closed rest
  rw [h.same] at hfind hi
  have htake : sock.unread.take (i + 4) = r.text := by rw [h.unread, hi, List.take_left]
  have hdrop : sock.unread.drop (i + 4) = rest := by rw [h.unread, hi, List.drop_left]
  have hfree : 0 ∉ sock.unread.take (i + 4) := htake ▸ r.nulFree
  rcases readHttpHeaderAndBody_eq micros sock hb with
    hbad | ⟨pbHttpHeader, pbHttpBody, hc, hc', heq⟩
  · exact Or.inl hbad
  rcases readHeaderLoop_reads hsplits (h.unread ▸ hfind) hfree hc List.not_mem_nil
    (Nat.lt_succ_self _) with
    hbad | ⟨hdr, sock', hloop, hsim, hrest⟩
  · exact Or.inl (by rw [heq, hbad]; rfl)
  rw [List.nil_append, htake] at hsim
  rw [hdrop] at hrest
  rw [hloop] at heq
  rcases parseAndReadBody_spec h.same (b := ⟨hdr, pbHttpBody, b.bCookie, b.hmHttpMethod⟩) hsim
    hb.cookie micros sock' with hbad | ⟨bCookie, pContentType, hcookie, hrun⟩
  · exact Or.inl (heq.trans hbad)
  · exact Or.inr ⟨hdr, pbHttpBody, sock', bCookie, pContentType, hsim, hc', hcookie, hrest,
      heq.trans hrun⟩

/-- **A request that is complete is read**, into buffers that any earlier call has left. -/
theorem readHttpHeaderAndBody_complete (hb : b.Ready) (hmicros : micros < 1000000)
    {d : ReceivedRequest} (h : Complete sock d) :
    readHttpHeaderAndBody micros b sock = .error .badAlloc ∨
      ∃ b' sock', readHttpHeaderAndBody micros b sock = .ok (.errNoError, b', sock') ∧ b'.Hold d := by
  cases h with
  | @get r block rest hheader hmethod =>
    rcases hheader.read hb micros with
      hbad | ⟨hdr, pbHttpBody, sock', bCookie, pContentType, hsim, hc, hcookie, -, hrun⟩
    · exact Or.inl hbad
    refine Or.inr ⟨⟨hdr, pbHttpBody, bCookie, .get⟩, sock', ?_, rfl, hsim, hc, hcookie⟩
    rw [hrun, hmethod]
    unfold readHttpBody
    rw [if_pos (Or.inr rfl)]
    rfl
  | @body r block rest n hheader hmethod hlength hlong hn hfree =>
    obtain ⟨f, digits, hf, hdigits, hdecimal⟩ := hlength
    rcases hheader.read hb micros with
      hbad | ⟨hdr, pbHttpBody, sock', bCookie, pContentType, hsim, hc, hcookie, hrest, hrun⟩
    · exact Or.inl hbad
    have hm : Holds hdr.str block.text := hheader.same ▸ str_holds hsim
    have hmin : min (2 ^ 63 - 1) n = n := by omega
    have hcontent := contentLength_eq block hm hf hdigits hdecimal
    rw [hmin] at hcontent
    have hremaining : remaining (some n) 0 sock'.unread = rest.take n := by rw [hrest]; rfl
    rcases readHttpBody_buffer hcontent pContentType hmethod hc hmicros (hremaining ▸ hfree) with
      hbad | ⟨out, hbody, ⟨b', hb', hc'⟩, hends⟩
    · exact Or.inl (by rw [hrun, hbad]; rfl)
    have herr : out.1 = .errNoError := hends.mpr ⟨n, rfl, by rw [hrest]; exact hn⟩
    rw [hremaining] at hc'
    refine Or.inr ⟨⟨hdr, b', bCookie, r.hmHttpMethod⟩, out.2.sock, ?_, rfl, hsim, hc',
      hcookie⟩
    rw [hrun, hbody, Except.map, if_pos herr, hb']
    rfl

end Whole

end WebUtility

end CatraLibraries
