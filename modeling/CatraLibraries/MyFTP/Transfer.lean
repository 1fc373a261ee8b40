/-
# What an upload sends

The transfer loops of the two `MyFTP::put`.  In ASCII mode a CR is to be sent before every LF that has
none; the ends of lines are searched with `strchr` in a buffer that has no NUL of its own.

Every `sendto` is accepted, the data socket is ready, `progress` succeeds, and a file comes in blocks
of 8192 bytes and a shorter one.
-/
import CatraLibraries.Lib.CString

namespace CatraLibraries

namespace MyFTP

open Memory CString

/-! ### The loops -/

/-- `FTPMode_t`. -/
inductive FTPMode
  | ascii
  | image
  deriving DecidableEq, Repr

/-- `SocketImpl::write` of bytes of a block: the bytes, or nothing where it refuses the length. -/
def write (m : Cells UInt8) (i : ℕ) (lBufferLength : ℤ) : Except Fault (Option (List UInt8)) :=
  if lBufferLength < 1 then .ok none
  else loads m i lBufferLength.toNat >>= fun bytes => .ok (some bytes)

/-- The loop over the ends of lines: what is sent, and `pBeginPointer`, or nothing after a refused
`write`.  The pointers are places in `_pucBuffer`. -/
def asciiLoop (pucBuffer : Cells UInt8) (cLastBufferChar : UInt8) :
    ℕ → ℕ → ℕ → Except Fault (List UInt8 × Option ℕ)
  | 0, _, _ => .error .outOfFuel
  | fuel + 1, pBeginPointer, pEndPointer =>
    seekChar (pucBuffer.drop pEndPointer) 10 >>= fun found =>
    match found with
    | none => .ok ([], some pBeginPointer)
    | some i =>
      let pEndPointer := pEndPointer + i
      if pEndPointer = 0 ∧ cLastBufferChar ≠ 13 then
        asciiLoop pucBuffer cLastBufferChar fuel (pEndPointer + 1) (pEndPointer + 1) >>= fun r =>
        .ok ([13, 10] ++ r.1, r.2)
      else
        -- `*(pEndPointer - 1)`
        (if pEndPointer = 0 then .error .outOfBounds else load pucBuffer (pEndPointer - 1)) >>=
          fun previous =>
        if previous ≠ 13 then
          write pucBuffer pBeginPointer (pEndPointer - pBeginPointer) >>= fun written =>
          match written with
          | none => .ok ([], none)
          | some bytes =>
            asciiLoop pucBuffer cLastBufferChar fuel (pEndPointer + 1) (pEndPointer + 1) >>= fun r =>
            .ok (bytes ++ [13, 10] ++ r.1, r.2)
        else asciiLoop pucBuffer cLastBufferChar fuel pBeginPointer (pEndPointer + 1)

/-- `FTP_MYFTP_MAXBUFFERLENGTH`. -/
def maxBufferLength : ℕ := 8192

/-- What is sent for a block of `_pucBuffer`, and `cLastBufferChar` for the next one, or nothing after
a refused `write`. -/
def sendBlock (fFTPMode : FTPMode) (pucBuffer : Cells UInt8) (ullBytesRead : ℕ)
    (cLastBufferChar : UInt8) : Except Fault (List UInt8 × Option UInt8) :=
  match fFTPMode with
  | .image =>
    write pucBuffer 0 ullBytesRead >>= fun written =>
    match written with
    | none => .ok ([], none)
    | some bytes => .ok (bytes, some cLastBufferChar)
  | .ascii =>
    asciiLoop pucBuffer cLastBufferChar (maxBufferLength + 1) 0 0 >>= fun r =>
    match r.2 with
    | none => .ok (r.1, none)
    | some pBeginPointer =>
      write pucBuffer pBeginPointer (ullBytesRead - pBeginPointer) >>= fun written =>
      match written with
      | none => .ok (r.1, none)
      | some bytes =>
        load pucBuffer (ullBytesRead - 1) >>= fun last =>
        .ok (r.1 ++ bytes, some last)

/-- The loop over the blocks of a file: what is sent, and whether it comes to the end. -/
def sendFile (fFTPMode : FTPMode) :
    List (List UInt8) → Cells UInt8 → UInt8 → Except Fault (List UInt8 × Bool)
  | [], _, _ => .ok ([], true)
  | block :: blocks, pucBuffer, cLastBufferChar =>
    writeAt pucBuffer 0 (block.map some) >>= fun pucBuffer =>
    sendBlock fFTPMode pucBuffer block.length cLastBufferChar >>= fun r =>
    match r.2 with
    | none => .ok (r.1, false)
    | some cLastBufferChar =>
      sendFile fFTPMode blocks pucBuffer cLastBufferChar >>= fun rest =>
      .ok (r.1 ++ rest.1, rest.2)

/-- The loop over the content of a `Buffer`.  In image mode it is sent from where it is. -/
def sendBuffer (fFTPMode : FTPMode) (content : Cells UInt8) :
    ℕ → ℕ → Cells UInt8 → UInt8 → Except Fault (List UInt8 × Bool)
  | 0, _, _, _ => .error .outOfFuel
  | fuel + 1, ullBytesTransferred, pucBuffer, cLastBufferChar =>
    strlen (content.drop ullBytesTransferred) >>= fun length =>
    if length = 0 then .ok ([], true)
    else
      let ullBytesToWrite := if maxBufferLength ≤ length then maxBufferLength else length
      (match fFTPMode with
        | .image =>
          sendBlock .image (content.drop ullBytesTransferred) ullBytesToWrite cLastBufferChar >>=
            fun r => .ok (pucBuffer, r)
        | .ascii =>
          memcpy pucBuffer 0 (content.drop ullBytesTransferred) ullBytesToWrite >>= fun pucBuffer =>
          sendBlock .ascii pucBuffer ullBytesToWrite cLastBufferChar >>= fun r =>
          .ok (pucBuffer, r)) >>= fun sent =>
      match sent.2.2 with
      | none => .ok (sent.2.1, false)
      | some cLastBufferChar =>
        sendBuffer fFTPMode content fuel (ullBytesTransferred + ullBytesToWrite) sent.1
          cLastBufferChar >>= fun rest =>
        .ok (sent.2.1 ++ rest.1, rest.2)

/-! ### What should be sent -/

/-- A CR before every LF that has none; `previous` is the character before. -/
def withCR : UInt8 → List UInt8 → List UInt8
  | _, [] => []
  | previous, c :: s =>
    if c = 10 ∧ previous ≠ 13 then 13 :: 10 :: withCR 10 s else c :: withCR c s

/-- Blocks of 8192 bytes, and a shorter one. -/
def blocksOf (s : List UInt8) : List (List UInt8) :=
  if s = [] then [] else s.take maxBufferLength :: blocksOf (s.drop maxBufferLength)
termination_by s.length
decreasing_by
  have := List.length_pos_of_ne_nil ‹_›
  rw [List.length_drop]
  unfold maxBufferLength
  omega

/-- What is uploaded: a file, or the content of a `Buffer`. -/
inductive Content
  | file (bytes : List UInt8)
  | buffer (content : CStr)

def Content.bytes : Content → List UInt8
  | .file bytes => bytes
  | .buffer content => content.bytes

/-- The transfer loop, from any contents of `_pucBuffer`; `cLastBufferChar` is a space. -/
def Content.send (fFTPMode : FTPMode) (pucBuffer : Cells UInt8) :
    Content → Except Fault (List UInt8 × Bool)
  | .file bytes => sendFile fFTPMode (blocksOf bytes) pucBuffer 32
  | .buffer content => sendBuffer fFTPMode content.cells (content.bytes.length + 1) 0 pucBuffer 32

/-- What the mode makes of the bytes. -/
def FTPMode.expected : FTPMode → List UInt8 → List UInt8
  | .image, s => s
  | .ascii, s => withCR 32 s

/-- No byte of `_pucBuffer` is read but those of the current block: each block is sent to its end when
there are no others. -/
def ReadsInside (fFTPMode : FTPMode) : UInt8 → List (List UInt8) → Prop
  | _, [] => True
  | cLastBufferChar, block :: blocks =>
    (∃ sent last, sendBlock fFTPMode (block.map some) block.length cLastBufferChar =
        .ok (sent, some last)) ∧
      ReadsInside fFTPMode (block.getLast?.getD cLastBufferChar) blocks

/-- **What an upload should do.** -/
structure Uploads (fFTPMode : FTPMode) (pucBuffer : Cells UInt8) (content : Content) : Prop where
  sent : content.send fFTPMode pucBuffer = .ok (fFTPMode.expected content.bytes, true)
  inside : ReadsInside fFTPMode 32 (blocksOf content.bytes)

/-- Behind its first byte it has an LF without a CR. -/
def Bare (s : List UInt8) : Prop := ∃ c, c ≠ 13 ∧ [c, 10] <:+: s

/-- Behind its first byte it has an LF without a CR, and another LF behind that. -/
def Doubled (s : List UInt8) : Prop := ∃ c, c ≠ 13 ∧ [c, 10, 10] <:+: s

/-- A block that is sent as it should be: it has a zero byte; before it no LF that was given a CR is
followed by another LF, and no CR is parted from its LF by the block before; behind it no LF lacks a
CR. -/
def BlockSent (previous : UInt8) (block : List UInt8) : Prop :=
  ∃ p q, block = p ++ 0 :: q ∧ 0 ∉ p ∧ ¬(previous = 13 ∧ p.head? = some 10) ∧
    ¬Doubled (previous :: p) ∧ ¬Bare (0 :: q)

/-- All blocks are such. -/
def BlocksSent : UInt8 → List (List UInt8) → Prop
  | _, [] => True
  | previous, block :: blocks =>
    BlockSent previous block ∧ BlocksSent (block.getLast?.getD previous) blocks

/-! ### Steps of the loop -/

variable {m : Cells UInt8} {cLast prev c : UInt8} {fuel b e : ℕ}

theorem drop_eq_of_getElem? {cell : Option UInt8} (h : m[e]? = some cell) :
    m.drop e = cell :: m.drop (e + 1) := by
  obtain ⟨hlt, hcell⟩ := List.getElem?_eq_some_iff.mp h
  rw [List.drop_eq_getElem_cons hlt, hcell]

theorem asciiLoop_skip (h : m[e]? = some (some c)) (hlf : c ≠ 10) (hnul : c ≠ 0) :
    asciiLoop m cLast fuel b e = asciiLoop m cLast fuel b (e + 1) := by
  cases fuel with
  | zero => rfl
  | succ fuel =>
    unfold asciiLoop
    rw [drop_eq_of_getElem? h, seekChar, if_neg hlf, if_neg hnul]
    cases hseek : seekChar (m.drop (e + 1)) 10 with
    | error fault => rfl
    | ok found =>
      rw [ok_bind, ok_bind, ok_bind]
      cases found with
      | none => rfl
      | some i =>
        dsimp only [Option.map_some]
        rw [show e + (i + 1) = e + 1 + i by omega]

theorem asciiLoop_nul (h : m[e]? = some (some 0)) :
    asciiLoop m cLast (fuel + 1) b e = .ok ([], some b) := by
  unfold asciiLoop
  rw [drop_eq_of_getElem? h, seekChar, if_neg (by decide), if_pos rfl, ok_bind]

theorem seekChar_here (h : m[e]? = some (some 10)) : seekChar (m.drop e) 10 = .ok (some 0) := by
  rw [drop_eq_of_getElem? h, seekChar, if_pos rfl]

/-- An LF at the beginning of a block that no CR stands before. -/
theorem asciiLoop_first (h : m[0]? = some (some 10)) (hlast : cLast ≠ 13) :
    asciiLoop m cLast (fuel + 1) b 0 =
      asciiLoop m cLast fuel 1 1 >>= fun r => .ok ([13, 10] ++ r.1, r.2) := by
  rw [asciiLoop, seekChar_here h, ok_bind]
  dsimp only
  rw [if_pos ⟨rfl, hlast⟩]

/-- Behind a CR at the end of the block before, the character before the block is looked at. -/
theorem asciiLoop_parted (h : m[0]? = some (some 10)) (hlast : cLast = 13) :
    asciiLoop m cLast (fuel + 1) b 0 = .error .outOfBounds := by
  rw [asciiLoop, seekChar_here h, ok_bind]
  dsimp only
  rw [if_neg (fun h => h.2 hlast), if_pos rfl]
  rfl

/-- An LF behind another character. -/
theorem asciiLoop_later (cLast : UInt8) (fuel b : ℕ) {k : ℕ} (he : e = k + 1)
    (h : m[e]? = some (some 10)) (hprev : m[k]? = some (some prev)) :
    asciiLoop m cLast (fuel + 1) b e =
      if prev ≠ 13 then
        write m b ((e : ℤ) - b) >>= fun written =>
        match written with
        | none => .ok ([], none)
        | some bytes =>
          asciiLoop m cLast fuel (e + 1) (e + 1) >>= fun r => .ok (bytes ++ [13, 10] ++ r.1, r.2)
      else asciiLoop m cLast fuel b (e + 1) := by
  subst he
  have hload : load m k = .ok prev := by
    unfold load
    rw [hprev]
  rw [asciiLoop, seekChar_here h, ok_bind]
  dsimp only
  rw [Nat.add_zero, if_neg (fun h => absurd h.1 (Nat.succ_ne_zero k)), if_neg (Nat.succ_ne_zero k),
    Nat.add_sub_cancel, hload, ok_bind]

/-! ### The loop over a block -/

/-- Where the loop is: at the beginning of the block, just behind an LF that was given a CR, or with
bytes that are still to be sent. -/
inductive Place
  | start
  | fresh
  | pending

/-- The bytes from the place on that `strchr` reads, up to a NUL, are sent as they should be. -/
def Sendable : Place → UInt8 → List UInt8 → Prop
  | _, _, [] => True
  | place, prev, c :: s =>
    if c = 10 then
      match place with
      | .start => prev ≠ 13 ∧ Sendable .fresh 10 s
      | .fresh => False
      | .pending => if prev = 13 then Sendable .pending 10 s else Sendable .fresh 10 s
    else Sendable .pending c s

/-- The place in a block behind the bytes `x`. -/
inductive Placed (cLast : UInt8) : Place → UInt8 → List UInt8 → ℕ → Prop
  | start : Placed cLast .start cLast [] 0
  | fresh (x : List UInt8) : Placed cLast .fresh 10 (x ++ [10]) (x ++ [10]).length
  | pending (x : List UInt8) (prev : UInt8) (b : ℕ) (hb : b < (x ++ [prev]).length) :
    Placed cLast .pending prev (x ++ [prev]) b

variable {place : Place} {x : List UInt8}

theorem Placed.le (h : Placed cLast place prev x b) : b ≤ x.length := by
  cases h with
  | start => exact le_refl _
  | fresh x => exact le_refl _
  | pending x prev b hb => exact hb.le

theorem Placed.skip (h : Placed cLast place prev x b) (c : UInt8) :
    Placed cLast .pending c (x ++ [c]) b := by
  refine .pending x c b ?_
  rw [List.length_append]
  exact Nat.lt_succ_of_le h.le

theorem sendable_start (s : List UInt8) :
    Sendable .start prev (10 :: s) ↔ prev ≠ 13 ∧ Sendable .fresh 10 s := by
  rw [Sendable, if_pos rfl]

theorem not_sendable_fresh (s : List UInt8) : ¬Sendable .fresh prev (10 :: s) := by
  rw [Sendable, if_pos rfl]
  exact id

theorem sendable_pending (s : List UInt8) :
    Sendable .pending prev (10 :: s) ↔
      if prev = 13 then Sendable .pending 10 s else Sendable .fresh 10 s := by
  rw [Sendable, if_pos rfl]

theorem sendable_of_ne (hc : c ≠ 10) (s : List UInt8) :
    Sendable place prev (c :: s) ↔ Sendable .pending c s := by
  show (if c = 10 then _ else Sendable .pending c s) ↔ _
  rw [if_neg hc]

theorem getElem?_here (x : List UInt8) (c : UInt8) (rest : Cells UInt8) :
    (x.map some ++ some c :: rest)[x.length]? = some (some c) := by
  rw [List.getElem?_append_right (by rw [List.length_map]), List.length_map, Nat.sub_self,
    List.getElem?_cons_zero]

theorem map_append_cons (x : List UInt8) (c : UInt8) (rest : Cells UInt8) :
    x.map some ++ some c :: rest = (x ++ [c]).map some ++ rest := by
  rw [List.map_append, List.append_assoc]
  rfl

theorem withCR_of_ne (hc : c ≠ 10) (prev : UInt8) (s : List UInt8) :
    withCR prev (c :: s) = c :: withCR c s := if_neg fun h => hc h.1

theorem withCR_of_cr (s : List UInt8) : withCR 13 (10 :: s) = 10 :: withCR 10 s :=
  if_neg fun h => h.2 rfl

theorem withCR_of_bare (hprev : prev ≠ 13) (s : List UInt8) :
    withCR prev (10 :: s) = 13 :: 10 :: withCR 10 s := if_pos ⟨rfl, hprev⟩

/-- The pending bytes are written. -/
theorem write_pending (x : List UInt8) (rest : Cells UInt8) (hb : b < x.length) :
    write (x.map some ++ rest) b ((x.length : ℕ) - b) = .ok (some (x.drop b)) := by
  have hloads := loads_append ((x.take b).map some) rest (x.drop b)
  rw [← List.append_assoc, ← List.map_append, List.take_append_drop, List.length_map,
    List.length_take, Nat.min_eq_left hb.le, List.length_drop] at hloads
  unfold write
  rw [if_neg (by omega), show ((x.length : ℤ) - b).toNat = x.length - b by omega, hloads, ok_bind]

/-- Up to a NUL the loop sends the bytes with their CRs, but for those behind the last LF that was
given one. -/
theorem asciiLoop_sends (tail : Cells UInt8) (y : List UInt8) (h0 : 0 ∉ y) (hplaced : Placed cLast place prev x b)
    (hsend : Sendable place prev y) (hfuel : y.length < fuel) :
    ∃ sent b', asciiLoop (x.map some ++ (y.map some ++ some 0 :: tail)) cLast fuel b x.length =
        .ok (sent, some b') ∧ b' ≤ x.length + y.length ∧
      sent ++ (x ++ y).drop b' = x.drop b ++ withCR prev y := by
  induction y generalizing x place prev b fuel with
  | nil =>
    obtain ⟨fuel, rfl⟩ := Nat.exists_eq_add_of_lt hfuel
    refine ⟨[], b, ?_, hplaced.le, ?_⟩
    · rw [List.length_nil, Nat.zero_add]
      exact asciiLoop_nul (getElem?_here x 0 tail)
    · rw [List.append_nil]
      exact (List.append_nil _).symm
  | cons c y ih =>
    have hy : 0 ∉ y := fun h => h0 (List.mem_cons_of_mem c h)
    have hc : c ≠ 0 := fun h => h0 (h ▸ List.mem_cons_self)
    have hlen : (x ++ [c]).length = x.length + 1 := List.length_append
    have hmem : (x ++ [c]).map some ++ (y.map some ++ some 0 :: tail) =
        x.map some ++ some c :: (y.map some ++ some 0 :: tail) := (map_append_cons x c _).symm
    have happ : x ++ c :: y = (x ++ [c]) ++ y := List.append_cons x c y
    have hhere := getElem?_here x c (y.map some ++ some 0 :: tail)
    show ∃ sent b', asciiLoop (x.map some ++ some c :: (y.map some ++ some 0 :: tail)) cLast fuel b
      x.length = _ ∧ b' ≤ _ ∧ _
    by_cases hlf : c = 10
    · subst hlf
      obtain ⟨fuel, rfl⟩ : ∃ k, fuel = k + 1 := ⟨fuel - 1, by omega⟩
      have hshort : y.length < fuel := Nat.lt_of_succ_lt_succ hfuel
      cases hplaced with
      | start =>
        obtain ⟨hlast, hsend⟩ := (sendable_start y).mp hsend
        obtain ⟨sent, b', hrun, hb', heq⟩ := ih hy (.fresh []) hsend hshort
        rw [hmem] at hrun
        refine ⟨[13, 10] ++ sent, b', (asciiLoop_first hhere hlast).trans ?_, ?_, ?_⟩
        · rw [show asciiLoop _ _ fuel 1 1 = _ from hrun, ok_bind]
        · rw [hlen] at hb'
          rw [List.length_cons]
          omega
        · rw [happ, List.append_assoc, heq, withCR_of_bare hlast]
          rfl
      | fresh x => exact absurd hsend (not_sendable_fresh y)
      | pending x prev b hb =>
        have hprev : ((x ++ [prev]).map some ++ some 10 :: (y.map some ++ some 0 :: tail))[x.length]? =
            some (some prev) := by
          rw [← map_append_cons]
          exact getElem?_here x prev _
        have hlater := asciiLoop_later cLast fuel b List.length_append hhere hprev
        rw [sendable_pending] at hsend
        by_cases hcr : prev = 13
        · subst hcr
          rw [if_pos rfl] at hsend
          obtain ⟨sent, b', hrun, hb', heq⟩ := ih hy ((Placed.pending x 13 b hb).skip 10) hsend hshort
          rw [hlen, hmem] at hrun
          rw [if_neg (not_not.mpr rfl)] at hlater
          refine ⟨sent, b', hlater.trans hrun, ?_, ?_⟩
          · rw [hlen] at hb'
            rw [List.length_cons]
            omega
          · rw [happ, heq, withCR_of_cr, List.drop_append_of_le_length hb.le, List.append_assoc]
            rfl
        · rw [if_neg hcr] at hsend
          obtain ⟨sent, b', hrun, hb', heq⟩ := ih hy (.fresh (x ++ [prev])) hsend hshort
          rw [hlen, hmem] at hrun
          rw [if_pos hcr, write_pending _ _ hb, ok_bind] at hlater
          dsimp only at hlater
          rw [hrun, ok_bind] at hlater
          refine ⟨_, b', hlater, ?_, ?_⟩
          · rw [hlen] at hb'
            rw [List.length_cons]
            omega
          · rw [happ, List.append_assoc, List.append_assoc, heq, withCR_of_bare hcr,
              List.drop_length, List.nil_append]
            rfl
    · obtain ⟨sent, b', hrun, hb', heq⟩ := ih hy (hplaced.skip c)
        ((sendable_of_ne hlf y).mp hsend) (Nat.lt_of_succ_lt hfuel)
      rw [hlen, hmem] at hrun
      refine ⟨sent, b', (asciiLoop_skip hhere hlf hc).trans hrun, ?_, ?_⟩
      · rw [hlen] at hb'
        rw [List.length_cons]
        omega
      · rw [happ, heq, withCR_of_ne hlf, List.drop_append_of_le_length hplaced.le, List.append_assoc]
        rfl

/-- When the loop comes to its end without a byte behind the block, the bytes up to a NUL are
sendable. -/
theorem sendable_of_asciiLoop (y : List UInt8) (hplaced : Placed cLast place prev x b)
    {sent : List UInt8} {b' : ℕ}
    (h : asciiLoop (x.map some ++ y.map some) cLast fuel b x.length = .ok (sent, some b')) :
    ∃ p q, y = p ++ 0 :: q ∧ 0 ∉ p ∧ Sendable place prev p := by
  induction y generalizing x place prev b fuel sent with
  | nil =>
    cases fuel with
    | zero => cases h
    | succ fuel =>
      have hdrop : (x.map some).drop x.length = [] :=
        List.drop_eq_nil_iff.mpr (List.length_map _).le
      rw [List.map_nil, List.append_nil, asciiLoop, hdrop] at h
      cases h
  | cons c y ih =>
    have hhere := getElem?_here x c (y.map some)
    change asciiLoop (x.map some ++ some c :: y.map some) cLast fuel b x.length = _ at h
    -- the loop behind the character, and what it says about the bytes from the character on
    have hnext : ∀ {place' : Place} {k b₁ : ℕ} {sent₁ : List UInt8},
        Placed cLast place' c (x ++ [c]) b₁ →
        asciiLoop (x.map some ++ some c :: y.map some) cLast k b₁ (x.length + 1) =
          .ok (sent₁, some b') →
        (∀ p, Sendable place' c p → Sendable place prev (c :: p)) → c ≠ 0 →
        ∃ p q, c :: y = p ++ 0 :: q ∧ 0 ∉ p ∧ Sendable place prev p := by
      intro place' k b₁ sent₁ hplaced' hrun hcons hc
      have hlen : (x ++ [c]).length = x.length + 1 := List.length_append
      rw [map_append_cons, ← hlen] at hrun
      obtain ⟨p, q, rfl, hp, hsend⟩ := ih hplaced' hrun
      refine ⟨c :: p, q, rfl, fun h0 => ?_, hcons p hsend⟩
      rcases List.mem_cons.mp h0 with h0 | h0
      · exact hc h0.symm
      · exact hp h0
    by_cases hc : c = 0
    · exact ⟨[], y, by rw [hc]; rfl, List.not_mem_nil, trivial⟩
    by_cases hlf : c = 10
    · subst hlf
      cases fuel with
      | zero => cases h
      | succ fuel =>
        cases hplaced with
        | start =>
          by_cases hlast : cLast = 13
          · exact absurd ((asciiLoop_parted hhere hlast).symm.trans h) nofun
          · obtain ⟨⟨sent₁, b₁⟩, hrun, h⟩ := bind_eq_ok.mp ((asciiLoop_first hhere hlast).symm.trans h)
            obtain ⟨-, rfl⟩ := Prod.mk.inj (Except.ok.inj h)
            exact hnext (.fresh []) hrun (fun p hp => (sendable_start p).mpr ⟨hlast, hp⟩) hc
        | fresh x =>
          -- nothing is between the two LFs, and an empty write is refused
          have hprev : ((x ++ [10]).map some ++ some 10 :: y.map some)[x.length]? = some (some 10) := by
            rw [← map_append_cons]
            exact getElem?_here x 10 _
          have hempty : write ((x ++ [10]).map some ++ some 10 :: y.map some) (x ++ [10]).length
              (((x ++ [10]).length : ℕ) - (x ++ [10]).length) = .ok none := if_pos (by omega)
          rw [asciiLoop_later cLast fuel _ List.length_append hhere hprev, if_pos (by decide), hempty,
            ok_bind] at h
          cases h
        | pending x prev b hb =>
          have hprev : ((x ++ [prev]).map some ++ some 10 :: y.map some)[x.length]? =
              some (some prev) := by
            rw [← map_append_cons]
            exact getElem?_here x prev _
          rw [asciiLoop_later cLast fuel _ List.length_append hhere hprev] at h
          by_cases hcr : prev = 13
          · rw [if_neg (not_not.mpr hcr)] at h
            refine hnext ((Placed.pending x prev b hb).skip 10) h (fun p hp => ?_) hc
            rw [sendable_pending, if_pos hcr]
            exact hp
          · rw [if_pos hcr, write_pending _ _ hb, ok_bind] at h
            dsimp only at h
            obtain ⟨⟨sent₁, b₁⟩, hrun, h⟩ := bind_eq_ok.mp h
            obtain ⟨-, rfl⟩ := Prod.mk.inj (Except.ok.inj h)
            have hfresh : Placed cLast .fresh 10 (x ++ [prev] ++ [10]) (x ++ [prev] ++ [10]).length :=
              .fresh (x ++ [prev])
            rw [List.length_append] at hfresh
            refine hnext hfresh hrun (fun p hp => ?_) hc
            rw [sendable_pending, if_neg hcr]
            exact hp
    · rw [asciiLoop_skip hhere hlf hc] at h
      exact hnext (hplaced.skip c) h (fun p hp => (sendable_of_ne hlf p).mpr hp) hc

/-! ### Pairs of LFs -/

theorem doubled_cons_cons (a d : UInt8) (s : List UInt8) :
    Doubled (a :: d :: s) ↔ (a ≠ 13 ∧ d = 10 ∧ s.head? = some 10) ∨ Doubled (d :: s) := by
  unfold Doubled
  constructor
  · rintro ⟨c, hc, h⟩
    rcases List.infix_cons_iff.mp h with h | h
    · obtain ⟨hca, h⟩ := List.cons_prefix_cons.mp h
      obtain ⟨hd, t, ht⟩ := List.cons_prefix_cons.mp h
      exact Or.inl ⟨hca ▸ hc, hd.symm, ht ▸ rfl⟩
    · exact Or.inr ⟨c, hc, h⟩
  · rintro (⟨ha, rfl, hs⟩ | ⟨c, hc, h⟩)
    · obtain ⟨t, rfl⟩ := List.head?_eq_some_iff.mp hs
      exact ⟨a, ha, [], t, rfl⟩
    · exact ⟨c, hc, List.infix_cons h⟩

theorem not_doubled_singleton (a : UInt8) : ¬Doubled [a] := by
  rintro ⟨c, -, h⟩
  exact absurd (Nat.le_of_succ_le_succ h.length_le) (Nat.not_succ_le_zero _)

theorem sendable_pending_iff (prev : UInt8) (s : List UInt8) :
    (Sendable .pending prev s ↔ ¬Doubled (prev :: s)) ∧
      (Sendable .fresh 10 s ↔ s.head? ≠ some 10 ∧ ¬Doubled (10 :: s)) := by
  induction s generalizing prev with
  | nil =>
    exact ⟨iff_of_true trivial (not_doubled_singleton _),
      iff_of_true trivial ⟨nofun, not_doubled_singleton _⟩⟩
  | cons c s ih =>
    by_cases hlf : c = 10
    · subst hlf
      refine ⟨?_, iff_of_false (not_sendable_fresh s) fun h => h.1 rfl⟩
      rw [sendable_pending, doubled_cons_cons]
      by_cases hcr : prev = 13
      · rw [if_pos hcr, (ih 10).1]
        constructor
        · rintro h (⟨hne, -⟩ | hd)
          · exact hne hcr
          · exact h hd
        · exact fun h hd => h (Or.inr hd)
      · rw [if_neg hcr, (ih 10).2]
        constructor
        · rintro ⟨hhead, hdoubled⟩ (⟨-, -, h⟩ | h)
          · exact hhead h
          · exact hdoubled h
        · exact fun h => ⟨fun hhead => h (Or.inl ⟨hcr, rfl, hhead⟩), fun hd => h (Or.inr hd)⟩
    · have hne : (c :: s).head? ≠ some 10 := fun h => hlf (Option.some.inj h)
      rw [sendable_of_ne hlf, sendable_of_ne hlf, doubled_cons_cons, doubled_cons_cons, (ih c).1]
      have hskip : ∀ a : UInt8, ¬((a ≠ 13 ∧ c = 10 ∧ s.head? = some 10) ∨ Doubled (c :: s)) ↔
          ¬Doubled (c :: s) := by
        intro a
        exact ⟨fun h hd => h (Or.inr hd), fun h hor => hor.elim (fun h => hlf h.2.1) h⟩
      rw [hskip, hskip]
      exact ⟨Iff.rfl, fun h => ⟨hne, h⟩, fun h => h.2⟩

theorem sendable_start_iff (s : List UInt8) :
    Sendable .start prev s ↔ ¬(prev = 13 ∧ s.head? = some 10) ∧ ¬Doubled (prev :: s) := by
  cases s with
  | nil => exact iff_of_true trivial ⟨fun h => absurd h.2 nofun, not_doubled_singleton _⟩
  | cons c s =>
    rw [doubled_cons_cons]
    by_cases hlf : c = 10
    · subst hlf
      rw [sendable_start, (sendable_pending_iff prev s).2]
      constructor
      · rintro ⟨hcr, hhead, hdoubled⟩
        refine ⟨fun h => hcr h.1, ?_⟩
        rintro (⟨-, -, h⟩ | h)
        · exact hhead h
        · exact hdoubled h
      · rintro ⟨hstart, h⟩
        have hcr : prev ≠ 13 := fun hcr => hstart ⟨hcr, rfl⟩
        exact ⟨hcr, fun hhead => h (Or.inl ⟨hcr, rfl, hhead⟩), fun hd => h (Or.inr hd)⟩
    · rw [sendable_of_ne hlf, (sendable_pending_iff c s).1]
      constructor
      · intro h
        refine ⟨fun hstart => hlf (Option.some.inj hstart.2), ?_⟩
        rintro (⟨-, hc, -⟩ | hd)
        · exact hlf hc
        · exact h hd
      · exact fun h hd => h.2 (Or.inr hd)

/-! ### CRs that are missing -/

theorem bare_cons_cons (a d : UInt8) (s : List UInt8) :
    Bare (a :: d :: s) ↔ (a ≠ 13 ∧ d = 10) ∨ Bare (d :: s) := by
  unfold Bare
  constructor
  · rintro ⟨c, hc, h⟩
    rcases List.infix_cons_iff.mp h with h | h
    · obtain ⟨hca, h⟩ := List.cons_prefix_cons.mp h
      exact Or.inl ⟨hca ▸ hc, (List.cons_prefix_cons.mp h).1.symm⟩
    · exact Or.inr ⟨c, hc, h⟩
  · rintro (⟨ha, rfl⟩ | ⟨c, hc, h⟩)
    · exact ⟨a, ha, [], s, rfl⟩
    · exact ⟨c, hc, List.infix_cons h⟩

theorem length_withCR (prev : UInt8) (s : List UInt8) :
    s.length ≤ (withCR prev s).length ∧
      ((withCR prev s).length ≤ s.length → withCR prev s = s) := by
  induction s generalizing prev with
  | nil => exact ⟨le_refl _, fun _ => rfl⟩
  | cons c s ih =>
    unfold withCR
    by_cases hbare : c = 10 ∧ prev ≠ 13
    · rw [if_pos hbare]
      have := (ih 10).1
      simp only [List.length_cons]
      exact ⟨by omega, fun h => absurd h (by omega)⟩
    · rw [if_neg hbare]
      refine ⟨Nat.succ_le_succ (ih c).1, fun h => ?_⟩
      rw [(ih c).2 (Nat.le_of_succ_le_succ h)]

/-- Nothing is added just when no LF is bare. -/
theorem withCR_eq_self_iff (prev : UInt8) (s : List UInt8) :
    withCR prev s = s ↔ ¬Bare (prev :: s) := by
  induction s generalizing prev with
  | nil =>
    refine iff_of_true rfl ?_
    rintro ⟨c, -, h⟩
    exact absurd (Nat.le_of_succ_le_succ h.length_le) (Nat.not_succ_le_zero _)
  | cons c s ih =>
    rw [bare_cons_cons]
    by_cases hbare : c = 10 ∧ prev ≠ 13
    · refine iff_of_false (fun h => ?_) fun h => h (Or.inl ⟨hbare.2, hbare.1⟩)
      rw [hbare.1, withCR_of_bare hbare.2] at h
      exact absurd (List.cons.inj h).1 (by decide)
    · rw [withCR, if_neg hbare, List.cons_inj_right, ih c]
      constructor
      · rintro h (⟨hprev, hc⟩ | hb)
        · exact hbare ⟨hc, hprev⟩
        · exact h hb
      · exact fun h hb => h (Or.inr hb)

theorem withCR_append (prev : UInt8) (s t : List UInt8) :
    withCR prev (s ++ t) = withCR prev s ++ withCR (s.getLast?.getD prev) t := by
  induction s generalizing prev with
  | nil => rfl
  | cons c s ih =>
    have hlast : (c :: s).getLast?.getD prev = s.getLast?.getD c := by
      rw [List.getLast?_cons]
      rfl
    rw [List.cons_append, withCR, withCR, ih, ih, hlast]
    by_cases hbare : c = 10 ∧ prev ≠ 13
    · rw [if_pos hbare, if_pos hbare, hbare.1]
      rfl
    · rw [if_neg hbare, if_neg hbare]
      rfl

/-! ### A block -/

variable {p q block : List UInt8}

theorem load_last (hne : block ≠ []) (tail : Cells UInt8) (c : UInt8) :
    load (block.map some ++ tail) (block.length - 1) = .ok (block.getLast?.getD c) := by
  obtain ⟨init, last, rfl⟩ := (List.eq_nil_or_concat block).resolve_left hne
  have hload := load_append (init.map some) tail last
  rw [map_append_cons, List.length_map] at hload
  rw [List.concat_eq_append, List.length_append, List.length_singleton, Nat.add_sub_cancel, hload,
    List.getLast?_concat]
  rfl

/-- A block is sent with the CRs that are missing before its first NUL. -/
theorem sendBlock_eq (h0 : 0 ∉ p) (hsend : Sendable .start c p)
    (hlen : (p ++ 0 :: q).length ≤ maxBufferLength) (tail : Cells UInt8) :
    sendBlock .ascii ((p ++ 0 :: q).map some ++ tail) (p ++ 0 :: q).length c =
      .ok (withCR c p ++ 0 :: q, some ((p ++ 0 :: q).getLast?.getD c)) := by
  have hp : p.length < (p ++ 0 :: q).length := by
    rw [List.length_append, List.length_cons]
    omega
  obtain ⟨sent, b', hrun, hb', heq⟩ := asciiLoop_sends (q.map some ++ tail) p h0 .start hsend
    (Nat.lt_succ_of_lt (Nat.lt_of_lt_of_le hp hlen))
  rw [List.length_nil, Nat.zero_add] at hb'
  have hmem : (p ++ 0 :: q).map some ++ tail =
      ([] : List UInt8).map some ++ (p.map some ++ some 0 :: (q.map some ++ tail)) := by
    rw [List.map_append, List.append_assoc]
    rfl
  have hwrite := write_pending (p ++ 0 :: q) tail (Nat.lt_of_le_of_lt hb' hp)
  unfold sendBlock
  dsimp only
  rw [hmem, show asciiLoop _ c (maxBufferLength + 1) 0 0 = _ from hrun, ok_bind]
  dsimp only
  rw [← hmem, hwrite, ok_bind]
  dsimp only
  rw [load_last (List.append_ne_nil_of_right_ne_nil p (List.cons_ne_nil 0 q)), ok_bind,
    List.drop_append_of_le_length hb', ← List.append_assoc]
  rw [List.nil_append, List.drop_nil, List.nil_append] at heq
  rw [heq]

theorem inside_block {sent : List UInt8} {last : UInt8}
    (h : sendBlock .ascii (block.map some) block.length c = .ok (sent, some last)) :
    ∃ p q, block = p ++ 0 :: q ∧ 0 ∉ p ∧ Sendable .start c p := by
  unfold sendBlock at h
  dsimp only at h
  obtain ⟨⟨sent₁, b₁⟩, hrun, h⟩ := bind_eq_ok.mp h
  cases b₁ with
  | none => cases h
  | some b₁ => exact sendable_of_asciiLoop (x := []) block .start hrun

/-- What is sent for such a block is what should be, unless a CR is missing behind the NUL. -/
theorem withCR_block (c : UInt8) (p q : List UInt8) :
    withCR c (p ++ 0 :: q) = withCR c p ++ 0 :: withCR 0 q := by
  rw [withCR_append, withCR_of_ne (by decide)]

/-! ### The blocks -/

theorem writeAt_block {m : Cells UInt8} (hm : m.length = maxBufferLength)
    (hblock : block.length ≤ maxBufferLength) :
    writeAt m 0 (block.map some) = .ok (block.map some ++ m.drop block.length) ∧
      (block.map some ++ m.drop block.length).length = maxBufferLength := by
  have hsplit := writeAt_append [] (m.drop block.length) (o := m.take block.length)
    (n := block.map some)
    (by rw [List.length_take, List.length_map, hm]; exact Nat.min_eq_left hblock)
  rw [List.nil_append, List.take_append_drop] at hsplit
  refine ⟨hsplit, ?_⟩
  rw [List.length_append, List.length_map, List.length_drop, hm]
  omega

/-- The first NUL is at one place. -/
theorem first_nul {p' q' : List UInt8} (h : p ++ 0 :: q = p' ++ 0 :: q') (h0 : 0 ∉ p) (h0' : 0 ∉ p') :
    p = p' ∧ q = q' := by
  induction p generalizing p' with
  | nil =>
    cases p' with
    | nil => exact ⟨rfl, (List.cons.inj h).2⟩
    | cons c p' => exact absurd (List.mem_cons.mpr (Or.inl (List.cons.inj h).1)) h0'
  | cons d p ih =>
    cases p' with
    | nil => exact absurd (List.mem_cons.mpr (Or.inl (List.cons.inj h).1.symm)) h0
    | cons c p' =>
      obtain ⟨rfl, htail⟩ := List.cons.inj h
      obtain ⟨rfl, rfl⟩ := ih htail (List.not_mem_of_not_mem_cons h0)
        (List.not_mem_of_not_mem_cons h0')
      exact ⟨rfl, rfl⟩

theorem BlockSent.sendable (h : BlockSent c block) :
    ∃ p q, block = p ++ 0 :: q ∧ 0 ∉ p ∧ Sendable .start c p ∧ withCR 0 q = q := by
  obtain ⟨p, q, hblock, h0, hstart, hdoubled, hbare⟩ := h
  exact ⟨p, q, hblock, h0, (sendable_start_iff p).mpr ⟨hstart, hdoubled⟩,
    (withCR_eq_self_iff 0 q).mpr hbare⟩

theorem blockSent_iff (h0 : 0 ∉ p) (hsend : Sendable .start c p) :
    BlockSent c (p ++ 0 :: q) ↔ withCR 0 q = q := by
  constructor
  · intro h
    obtain ⟨p', q', heq, h0', -, hq⟩ := h.sendable
    obtain ⟨-, rfl⟩ := first_nul heq h0 h0'
    exact hq
  · intro hq
    obtain ⟨hstart, hdoubled⟩ := (sendable_start_iff p).mp hsend
    exact ⟨p, q, rfl, h0, hstart, hdoubled, (withCR_eq_self_iff 0 q).mp hq⟩

/-- When only the current block is read, the loop comes to its end.  What it leaves out are CRs, so
that the lengths tell whether it sends what it should. -/
theorem sendFile_inside (blocks : List (List UInt8)) (hblocks : ∀ block ∈ blocks,
    block.length ≤ maxBufferLength) {m : Cells UInt8} (hm : m.length = maxBufferLength) {c : UInt8}
    (hinside : ReadsInside .ascii c blocks) :
    ∃ sent, sendFile .ascii blocks m c = .ok (sent, true) ∧
      sent.length ≤ (withCR c blocks.flatten).length ∧
      (sent = withCR c blocks.flatten ↔ BlocksSent c blocks) := by
  induction blocks generalizing m c with
  | nil => exact ⟨[], rfl, le_refl _, iff_of_true rfl trivial⟩
  | cons block blocks ih =>
    obtain ⟨⟨sent₁, last, hblock⟩, hinside⟩ := hinside
    obtain ⟨p, q, rfl, h0, hsend⟩ := inside_block hblock
    have hlen := hblocks _ List.mem_cons_self
    obtain ⟨hwrite, hm'⟩ := writeAt_block hm hlen
    obtain ⟨sent, hrest, hle, hiff⟩ :=
      ih (fun b hb => hblocks b (List.mem_cons_of_mem _ hb)) hm' hinside
    have hq := (length_withCR 0 q).1
    have hexpected : withCR c ((p ++ 0 :: q) :: blocks).flatten =
        withCR c p ++ 0 :: withCR 0 q ++
          withCR ((p ++ 0 :: q).getLast?.getD c) blocks.flatten := by
      rw [List.flatten_cons, withCR_append, withCR_block]
    rw [hexpected]
    refine ⟨(withCR c p ++ 0 :: q) ++ sent, ?_, ?_, ?_⟩
    · rw [sendFile, hwrite, ok_bind, sendBlock_eq h0 hsend hlen, ok_bind]
      dsimp only
      rw [hrest, ok_bind]
    · simp only [List.length_append, List.length_cons]
      omega
    · show _ ↔ BlockSent c (p ++ 0 :: q) ∧ BlocksSent _ blocks
      rw [blockSent_iff h0 hsend, ← hiff]
      constructor
      · intro h
        have hsame := congrArg List.length h
        simp only [List.length_append, List.length_cons] at hsame
        have heq : withCR 0 q = q := (length_withCR 0 q).2 (by omega)
        rw [heq] at h
        exact ⟨heq, List.append_cancel_left h⟩
      · rintro ⟨heq, h⟩
        rw [heq, h]

theorem BlocksSent.inside (blocks : List (List UInt8)) (hblocks : ∀ block ∈ blocks,
    block.length ≤ maxBufferLength) (h : BlocksSent c blocks) : ReadsInside .ascii c blocks := by
  induction blocks generalizing c with
  | nil => trivial
  | cons block blocks ih =>
    obtain ⟨p, q, rfl, h0, hsend, -⟩ := h.1.sendable
    have hsent := sendBlock_eq (q := q) h0 hsend (hblocks _ List.mem_cons_self) []
    rw [List.append_nil] at hsent
    exact ⟨⟨_, _, hsent⟩, ih (fun b hb => hblocks b (List.mem_cons_of_mem _ hb)) h.2⟩

/-! ### Image mode -/

theorem sendBlock_image (hne : block ≠ []) (rest : Cells UInt8) :
    sendBlock .image (block.map some ++ rest) block.length c = .ok (block, some c) := by
  have hpos := List.length_pos_of_ne_nil hne
  have hwrite := write_pending block rest hpos
  rw [Int.ofNat_zero, Int.sub_zero] at hwrite
  unfold sendBlock
  dsimp only
  rw [hwrite, ok_bind]
  rfl

theorem readsInside_image (blocks : List (List UInt8)) (hne : ∀ block ∈ blocks, block ≠ []) :
    ReadsInside .image c blocks := by
  induction blocks generalizing c with
  | nil => trivial
  | cons block blocks ih =>
    have hsent := sendBlock_image (c := c) (hne _ List.mem_cons_self) []
    rw [List.append_nil] at hsent
    exact ⟨⟨_, _, hsent⟩, ih fun b hb => hne b (List.mem_cons_of_mem _ hb)⟩

theorem sendFile_image (blocks : List (List UInt8)) (hne : ∀ block ∈ blocks, block ≠ [])
    (hblocks : ∀ block ∈ blocks, block.length ≤ maxBufferLength) {m : Cells UInt8}
    (hm : m.length = maxBufferLength) : sendFile .image blocks m c = .ok (blocks.flatten, true) := by
  induction blocks generalizing m c with
  | nil => rfl
  | cons block blocks ih =>
    obtain ⟨hwrite, hm'⟩ := writeAt_block hm (hblocks _ List.mem_cons_self)
    rw [sendFile, hwrite, ok_bind, sendBlock_image (hne _ List.mem_cons_self), ok_bind]
    dsimp only
    rw [ih (fun b hb => hne b (List.mem_cons_of_mem _ hb))
      (fun b hb => hblocks b (List.mem_cons_of_mem _ hb)) hm', ok_bind]
    rfl

/-! ### The blocks of a content -/

theorem blocksOf_nil : blocksOf [] = [] := by
  rw [blocksOf, if_pos rfl]

theorem blocksOf_of_ne {s : List UInt8} (hs : s ≠ []) :
    blocksOf s = s.take maxBufferLength :: blocksOf (s.drop maxBufferLength) := by
  rw [blocksOf, if_neg hs]

theorem blocksOf_short {s : List UInt8} (hs : s ≠ []) (hle : s.length ≤ maxBufferLength) :
    blocksOf s = [s] := by
  rw [blocksOf_of_ne hs, List.take_of_length_le hle, List.drop_eq_nil_iff.mpr hle, blocksOf_nil]

/-- What holds of the empty content and, from behind the first block, of any other. -/
theorem blocks_induction {P : List UInt8 → Prop} (nil : P [])
    (block : ∀ s, s ≠ [] → P (s.drop maxBufferLength) → P s) (s : List UInt8) : P s := by
  induction hn : s.length using Nat.strong_induction_on generalizing s with
  | _ n ih =>
    by_cases hs : s = []
    · exact hs ▸ nil
    · have hpos := List.length_pos_of_ne_nil hs
      refine block s hs (ih _ ?_ _ rfl)
      rw [← hn, List.length_drop]
      exact Nat.sub_lt hpos (by decide)

theorem blocksOf_spec (s : List UInt8) :
    (blocksOf s).flatten = s ∧ ∀ block ∈ blocksOf s, block ≠ [] ∧ block.length ≤ maxBufferLength := by
  induction s using blocks_induction with
  | nil => rw [blocksOf_nil]; exact ⟨rfl, nofun⟩
  | block s hs ih =>
    rw [blocksOf_of_ne hs]
    refine ⟨?_, ?_⟩
    · rw [List.flatten_cons, ih.1, List.take_append_drop]
    · rintro block hblock
      rcases List.mem_cons.mp hblock with rfl | hblock
      · refine ⟨fun h => ?_, List.length_take_le _ _⟩
        rcases List.take_eq_nil_iff.mp h with h | h
        · exact absurd h (by decide)
        · exact hs h
      · exact ih.2 block hblock

/-- Where the loop over the content of a `Buffer` is. -/
theorem strlen_rest (pre s : List UInt8) (h0 : 0 ∉ s) :
    ((pre ++ s).map some ++ [some 0]).drop pre.length = s.map some ++ [some 0] ∧
      strlen (s.map some ++ [some 0]) = .ok s.length := by
  refine ⟨?_, Holds.strlen_eq ⟨h0, [], rfl⟩⟩
  rw [List.map_append, List.append_assoc]
  exact List.drop_left' (List.length_map _)

/-- The length of the next block. -/
theorem length_block (s : List UInt8) :
    (if maxBufferLength ≤ s.length then maxBufferLength else s.length) =
      (s.take maxBufferLength).length := by
  rw [List.length_take]
  split
  · exact (Nat.min_eq_left ‹_›).symm
  · exact (Nat.min_eq_right (Nat.le_of_not_le ‹_›)).symm

theorem cells_split (s : List UInt8) :
    s.map some ++ [some 0] =
      (s.take maxBufferLength).map some ++ ((s.drop maxBufferLength).map some ++ [some 0]) := by
  rw [← List.append_assoc, ← List.map_append, List.take_append_drop]

/-- The content of a `Buffer` goes through the blocks of a file. -/
theorem sendBuffer_ascii (fuel : ℕ) (s pre : List UInt8) (h0 : 0 ∉ s) (hfuel : s.length < fuel)
    (m : Cells UInt8) (c : UInt8) :
    sendBuffer .ascii ((pre ++ s).map some ++ [some 0]) fuel pre.length m c =
      sendFile .ascii (blocksOf s) m c := by
  induction s using blocks_induction generalizing pre fuel m c with
  | nil =>
    obtain ⟨fuel, rfl⟩ := Nat.exists_eq_add_of_lt hfuel
    obtain ⟨hdrop, hstrlen⟩ := strlen_rest pre [] h0
    rw [sendBuffer, hdrop, hstrlen, ok_bind, if_pos List.length_nil, blocksOf_nil]
    rfl
  | block s hs ih =>
    obtain ⟨fuel, rfl⟩ : ∃ k, fuel = k + 1 := ⟨fuel - 1, by omega⟩
    obtain ⟨hdrop, hstrlen⟩ := strlen_rest pre s h0
    have hpos := List.length_pos_of_ne_nil hs
    have hcopy : memcpy m 0 (s.map some ++ [some 0]) (s.take maxBufferLength).length =
        writeAt m 0 ((s.take maxBufferLength).map some) := by
      rw [cells_split, memcpy_eq_writeAt (by rw [List.length_append, List.length_map]; omega),
        List.take_left' (List.length_map _)]
    have hrest := fun p last => ih fuel (pre ++ s.take maxBufferLength)
      (fun h => h0 (List.mem_of_mem_drop h))
      (by rw [List.length_drop]; unfold maxBufferLength; omega) p last
    rw [List.append_assoc, List.take_append_drop, List.length_append] at hrest
    rw [sendBuffer, hdrop, hstrlen, ok_bind, if_neg hpos.ne', blocksOf_of_ne hs, sendFile]
    dsimp only
    rw [length_block, hcopy]
    cases writeAt m 0 ((s.take maxBufferLength).map some) with
    | error fault => rfl
    | ok p =>
      rw [ok_bind, ok_bind]
      cases sendBlock .ascii p (s.take maxBufferLength).length c with
      | error fault => rfl
      | ok r =>
        rw [ok_bind, ok_bind, ok_bind]
        dsimp only
        cases r.2 with
        | none => rfl
        | some last =>
          dsimp only
          rw [hrest]

theorem sendBuffer_image (fuel : ℕ) (s pre : List UInt8) (h0 : 0 ∉ s) (hfuel : s.length < fuel)
    (m : Cells UInt8) (c : UInt8) :
    sendBuffer .image ((pre ++ s).map some ++ [some 0]) fuel pre.length m c = .ok (s, true) := by
  induction s using blocks_induction generalizing pre fuel with
  | nil =>
    obtain ⟨fuel, rfl⟩ := Nat.exists_eq_add_of_lt hfuel
    obtain ⟨hdrop, hstrlen⟩ := strlen_rest pre [] h0
    rw [sendBuffer, hdrop, hstrlen, ok_bind, if_pos List.length_nil]
  | block s hs ih =>
    obtain ⟨fuel, rfl⟩ : ∃ k, fuel = k + 1 := ⟨fuel - 1, by omega⟩
    obtain ⟨hdrop, hstrlen⟩ := strlen_rest pre s h0
    have hpos := List.length_pos_of_ne_nil hs
    have hne := ((blocksOf_spec s).2 _ (blocksOf_of_ne hs ▸ List.mem_cons_self)).1
    have hrest := ih fuel (pre ++ s.take maxBufferLength) (fun h => h0 (List.mem_of_mem_drop h))
      (by rw [List.length_drop]; unfold maxBufferLength; omega)
    rw [List.append_assoc, List.take_append_drop, List.length_append] at hrest
    rw [sendBuffer, hdrop, hstrlen, ok_bind, if_neg hpos.ne']
    dsimp only
    rw [length_block, cells_split, sendBlock_image hne, ok_bind, ok_bind]
    dsimp only
    rw [hrest, ok_bind]
    dsimp only
    rw [List.take_append_drop]

/-! ### Uploads -/

theorem Content.send_ascii (content : Content) (m : Cells UInt8) :
    content.send .ascii m = sendFile .ascii (blocksOf content.bytes) m 32 := by
  cases content with
  | file bytes => rfl
  | buffer content =>
    exact sendBuffer_ascii _ content.bytes [] content.nulFree (Nat.lt_succ_self _) m 32

theorem Content.send_image (content : Content) {m : Cells UInt8} (hm : m.length = maxBufferLength) :
    content.send .image m = .ok (content.bytes, true) := by
  cases content with
  | file bytes =>
    have hblocks := blocksOf_spec bytes
    have hsend := sendFile_image (c := 32) (blocksOf bytes) (fun b hb => (hblocks.2 b hb).1)
      (fun b hb => (hblocks.2 b hb).2) hm
    rw [hblocks.1] at hsend
    exact hsend
  | buffer content =>
    exact sendBuffer_image _ content.bytes [] content.nulFree (Nat.lt_succ_self _) m 32

/-- **When an upload does what it should.**  Always in image mode; in ASCII mode only when each block
has a NUL for the search to end at, no LF that is given a CR has another LF behind it, no CR is parted
from its LF, and no CR is missing behind a NUL. -/
theorem uploads_iff (fFTPMode : FTPMode) (pucBuffer : Cells UInt8) (content : Content)
    (hpucBuffer : pucBuffer.length = maxBufferLength) :
    Uploads fFTPMode pucBuffer content ↔
      fFTPMode = .image ∨ BlocksSent 32 (blocksOf content.bytes) := by
  obtain ⟨hflatten, hblocks⟩ := blocksOf_spec content.bytes
  have hlengths := fun b hb => (hblocks b hb).2
  cases fFTPMode with
  | image =>
    refine iff_of_true ⟨content.send_image hpucBuffer, ?_⟩ (Or.inl rfl)
    exact readsInside_image _ fun b hb => (hblocks b hb).1
  | ascii =>
    constructor
    · rintro ⟨hsent, hinside⟩
      obtain ⟨sent, hsend, -, hiff⟩ := sendFile_inside _ hlengths hpucBuffer hinside
      rw [content.send_ascii, hsend] at hsent
      have hsame : sent = withCR 32 content.bytes := (Prod.mk.inj (Except.ok.inj hsent)).1
      rw [hflatten] at hiff
      exact Or.inr (hiff.mp hsame)
    · rintro (h | hblocksSent)
      · cases h
      · have hinside := hblocksSent.inside _ hlengths
        obtain ⟨sent, hsend, -, hiff⟩ := sendFile_inside _ hlengths hpucBuffer hinside
        refine ⟨?_, hinside⟩
        rw [content.send_ascii, hsend, hiff.mpr hblocksSent, hflatten]
        rfl

theorem uploads_iff_nulEnded :
    Uploads .ascii (List.replicate maxBufferLength none) (.file [97, 10, 98, 0]) := by
  refine (uploads_iff .ascii _ (.file [97, 10, 98, 0]) List.length_replicate).mpr (Or.inr ?_)
  rw [Content.bytes, blocksOf_short (List.cons_ne_nil _ _) (by decide)]
  have hsend : Sendable .start 32 [97, 10, 98] := by simp [Sendable]
  exact ⟨(blockSent_iff (q := []) (by decide) hsend).mpr rfl, trivial⟩

/-- Of a text with an empty line the bytes before it are sent. -/
theorem not_uploads_emptyLine :
    ¬Uploads .ascii (List.replicate maxBufferLength (some 0)) (.file [97, 10, 10, 98]) := by
  rintro ⟨hsent, -⟩
  rw [Content.send, blocksOf_short (List.cons_ne_nil _ _) (by decide)] at hsent
  have hrun : sendFile .ascii [[97, 10, 10, 98]] (List.replicate maxBufferLength (some 0)) 32 =
      .ok ([97, 13, 10], false) := by decide +kernel
  exact absurd (Prod.mk.inj (Except.ok.inj (hrun.symm.trans hsent))).2 (by decide)

end MyFTP

end CatraLibraries
