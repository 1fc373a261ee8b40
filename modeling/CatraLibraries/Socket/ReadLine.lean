/-
# Reading a line

`SocketImpl::readLine` looks at a block of what a connection has brought, takes the line that it finds
there for the next one, and then removes it.

A connection here has bytes that have not been read, and gives as many of them to a `recvfrom` as it
likes, one at least.  `isReadyForReading` finds it ready, and no error but the end of the file comes
from it.
-/
import CatraLibraries.Lib.CString

namespace CatraLibraries

namespace SocketImpl

open Memory CString Substring

/-! ### The calls -/

/-- The buffer of the caller and the bytes that have not been read. -/
structure Reader where
  buffer : Cells UInt8
  unread : List UInt8
  deriving DecidableEq, Repr

/-- The errors of `read`. -/
inductive ReadError
  | activationWrong
  | eofReached
  deriving DecidableEq, Repr

/-- `read` with `bOneShotRead`, where `recvfrom` gives `size + 1` bytes if it can. -/
def read (ulBufferLength ulAdditionalMicrosecondsToWait size : ℕ) (bRemoveDataFromSocket : Bool)
    (r : Reader) : Except Fault (Except ReadError ℕ × Reader) :=
  if ulBufferLength = 0 ∨ 1000000 ≤ ulAdditionalMicrosecondsToWait then
    .ok (.error .activationWrong, r)
  else
    writeAt r.buffer 0 (List.replicate ulBufferLength (some 0)) >>= fun buffer =>
    let block := r.unread.take (min ulBufferLength (size + 1))
    if block = [] then .ok (.error .eofReached, ⟨buffer, r.unread⟩)
    else
      writeAt buffer 0 (block.map some) >>= fun buffer =>
      .ok (.ok block.length,
        ⟨buffer, if bRemoveDataFromSocket then r.unread.drop block.length else r.unread⟩)

/-- The two searches: the length of the line, and the bytes to remove. -/
def findLine (buffer : Cells UInt8) (ulBytesToRead : ℕ) : Except Fault (ℕ × ℕ) :=
  strstr buffer [13, 10] >>= fun pEndLine =>
  match pEndLine with
  | some i => .ok (i, i + 2)
  | none =>
    strchr buffer 10 >>= fun pEndLine =>
    match pEndLine with
    | some i => .ok (i, i + 1)
    | none => .ok (ulBytesToRead, ulBytesToRead)

/-- `readLine`, where the two calls of `recvfrom` give as many bytes as `sizes` says. -/
def readLine (ulBufferLength : UInt64) (ulAdditionalTimeoutInMicroSeconds : ℕ) (sizes : ℕ × ℕ)
    (r : Reader) : Except Fault (Except ReadError ℕ × Reader) :=
  read (ulBufferLength - 1).toNat ulAdditionalTimeoutInMicroSeconds sizes.1 false r >>= fun peeked =>
  match peeked with
  | (.error errRead, r) => .ok (.error errRead, r)
  | (.ok ulBytesToRead, r) =>
    findLine r.buffer ulBytesToRead >>= fun found =>
    read found.2 0 sizes.2 true r >>= fun taken =>
    match taken with
    | (.error errRead, r) => .ok (.error errRead, r)
    | (.ok _, r) =>
      store r.buffer found.1 0 >>= fun buffer =>
      .ok (.ok found.1, ⟨buffer, r.unread⟩)

/-! ### Lines -/

inductive Terminator
  | lf
  | crlf
  deriving DecidableEq, Repr

def Terminator.bytes : Terminator → List UInt8
  | .lf => [10]
  | .crlf => [13, 10]

/-- A line of a stream. -/
structure Line where
  text : List UInt8
  terminator : Terminator
  nulFree : 0 ∉ text
  noLF : 10 ∉ text
  noCR : terminator = .lf → text.getLast? ≠ some 13

def Line.bytes (line : Line) : List UInt8 := line.text ++ line.terminator.bytes

/-- The call returns the line, and leaves what follows its terminator. -/
def ReadsLine (ulBufferLength : UInt64) (ulAdditionalTimeoutInMicroSeconds : ℕ) (line : Line)
    (rest : List UInt8) (sizes : ℕ × ℕ) (r r' : Reader) : Prop :=
  readLine ulBufferLength ulAdditionalTimeoutInMicroSeconds sizes r =
      .ok (.ok line.text.length, r') ∧
    r'.buffer.length = ulBufferLength.toNat ∧ Holds r'.buffer line.text ∧ r'.unread = rest

/-- A buffer with a block in its first `n` bytes, and zeros behind it. -/
def filled (n : ℕ) (block : List UInt8) (buffer : Cells UInt8) : Cells UInt8 :=
  block.map some ++ (List.replicate (n - block.length) (some 0) ++ buffer.drop n)

/-- The block that the first `recvfrom` gives, in the buffer. -/
def peeked (ulBufferLength : UInt64) (size : ℕ) (r : Reader) : Cells UInt8 :=
  let n := (ulBufferLength - 1).toNat
  filled n (r.unread.take (min n (size + 1))) r.buffer

/-- The buffer shows the line with its terminator; when that is a single LF, it holds a string without
a CR LF.  The second `recvfrom` gives all that it is asked for. -/
structure ShowsLine (ulBufferLength : UInt64) (line : Line) (sizes : ℕ × ℕ) (r : Reader) : Prop where
  within : ∃ rest, peeked ulBufferLength sizes.1 r = line.bytes.map some ++ rest
  lone : line.terminator = .lf →
    ∃ s, Holds (peeked ulBufferLength sizes.1 r) s ∧ ¬[13, 10] <:+: s
  taken : line.bytes.length ≤ sizes.2 + 1

/-! ### `read` -/

variable {n micros size : ℕ} {remove : Bool} {r r' : Reader}

theorem length_filled {block : List UInt8} {buffer : Cells UInt8} (hblock : block.length ≤ n)
    (hbuffer : n ≤ buffer.length) : (filled n block buffer).length = buffer.length := by
  unfold filled
  rw [List.length_append, List.length_append, List.length_map, List.length_replicate,
    List.length_drop]
  omega

theorem write_filled {block : List UInt8} {buffer : Cells UInt8} (hblock : block.length ≤ n)
    (hbuffer : n ≤ buffer.length) :
    ∃ zeros, writeAt buffer 0 (List.replicate n (some 0)) = .ok zeros ∧
      writeAt zeros 0 (block.map some) = .ok (filled n block buffer) := by
  have hzeros : writeAt buffer 0 (List.replicate n (some 0)) =
      .ok (List.replicate n (some 0) ++ buffer.drop n) := by
    have hsplit := writeAt_append [] (buffer.drop n) (o := buffer.take n)
      (n := List.replicate n (some 0)) (by
        rw [List.length_take, List.length_replicate]
        exact Nat.min_eq_left hbuffer)
    rw [List.nil_append, List.take_append_drop] at hsplit
    exact hsplit
  refine ⟨_, hzeros, ?_⟩
  have hsplit := writeAt_append [] (List.replicate (n - block.length) (some 0) ++ buffer.drop n)
    (o := List.replicate block.length (some 0)) (n := block.map some) (by
      rw [List.length_replicate, List.length_map])
  have hreplicate : List.replicate n (some (0 : UInt8)) =
      List.replicate block.length (some 0) ++ List.replicate (n - block.length) (some 0) := by
    rw [← List.replicate_add, Nat.add_sub_cancel' hblock]
  rw [List.nil_append, ← List.append_assoc, ← hreplicate] at hsplit
  exact hsplit

/-- A call that finds bytes puts a block of them into the buffer. -/
theorem read_eq (size : ℕ) (remove : Bool) (hn : 0 < n) (hmicros : micros < 1000000) (hbuffer : n ≤ r.buffer.length)
    (hunread : r.unread ≠ []) :
    read n micros size remove r = .ok (.ok (r.unread.take (min n (size + 1))).length,
      ⟨filled n (r.unread.take (min n (size + 1))) r.buffer,
        if remove then r.unread.drop (r.unread.take (min n (size + 1))).length else r.unread⟩) := by
  have hblock : (r.unread.take (min n (size + 1))).length ≤ n := by
    rw [List.length_take]
    omega
  have hne : r.unread.take (min n (size + 1)) ≠ [] := by
    intro h
    rcases List.take_eq_nil_iff.mp h with hzero | hnil
    · omega
    · exact hunread hnil
  obtain ⟨zeros, hzeros, hfilled⟩ := write_filled hblock hbuffer
  unfold read
  rw [if_neg (by omega), hzeros, ok_bind]
  dsimp only
  rw [if_neg hne, hfilled, ok_bind]

theorem read_inv {k : ℕ} (h : read n micros size remove r = .ok (.ok k, r')) :
    k = (r.unread.take (min n (size + 1))).length ∧ n ≤ r.buffer.length ∧
      r'.unread = if remove then r.unread.drop k else r.unread := by
  unfold read at h
  split at h
  · cases h
  · obtain ⟨zeros, hzeros, h⟩ := bind_eq_ok.mp h
    have hroom := (writeAt_eq_ok hzeros).1
    rw [List.length_replicate, Nat.zero_add] at hroom
    dsimp only at h
    split at h
    · cases h
    · obtain ⟨buffer, -, h⟩ := bind_eq_ok.mp h
      cases h
      exact ⟨rfl, hroom, rfl⟩

/-! ### The searches -/

theorem Terminator.bytes_ne_nil (t : Terminator) : t.bytes ≠ [] := by
  cases t <;> exact nofun

theorem Line.length_bytes (line : Line) :
    line.text.length < line.bytes.length ∧ line.bytes.length ≤ line.text.length + 2 := by
  unfold Line.bytes
  rw [List.length_append]
  cases line.terminator with
  | lf => exact ⟨Nat.lt_succ_self _, Nat.le_succ _⟩
  | crlf => exact ⟨by simp only [Terminator.bytes, List.length_cons]; omega, le_refl _⟩

theorem Line.append_ne_nil (line : Line) (rest : List UInt8) : line.bytes ++ rest ≠ [] := by
  intro hnil
  have hbytes := line.length_bytes
  rw [(List.append_eq_nil_iff.mp hnil).1] at hbytes
  exact absurd hbytes.1 (Nat.not_lt_zero _)

theorem Line.zero_notMem (line : Line) : 0 ∉ line.bytes := by
  intro h
  rcases List.mem_append.mp h with htext | hterm
  · exact line.nulFree htext
  · cases hterminator : line.terminator <;> rw [hterminator] at hterm <;> exact absurd hterm (by decide)

/-- Bytes that are no zeros and stand in the first `n` bytes of the buffer are those of the block. -/
theorem prefix_of_filled {block x : List UInt8} {buffer tail : Cells UInt8} (hblock : block.length ≤ n)
    (hx : 0 ∉ x) (hlen : x.length ≤ n) (h : filled n block buffer = x.map some ++ tail) :
    x <+: block := by
  refine isPrefix_of_map_append ?_ (h.symm.trans rfl)
  by_contra hlt
  -- the byte behind the block is a zero
  have hzero : (filled n block buffer)[block.length]? = some (some 0) := by
    unfold filled
    rw [List.getElem?_append_right (by rw [List.length_map]), List.length_map, Nat.sub_self,
      List.getElem?_append_left (by rw [List.length_replicate]; omega), List.getElem?_replicate,
      if_pos (by omega)]
  rw [h] at hzero
  exact hlt (length_le_of_zero hx hzero)

/-- The first CR LF is behind bytes without an LF. -/
theorem strstr_crlf {x : List UInt8} (hx : 0 ∉ x) (hlf : 10 ∉ x) (tail : Cells UInt8) :
    strstr (x.map some ++ some 13 :: some 10 :: tail) [13, 10] = .ok (some x.length) := by
  induction x with
  | nil =>
    have hcmp : strncmp (some 13 :: some 10 :: tail) [13, 10] = .ok true := by simp only [strncmp, if_true]
    rw [List.map_nil, List.nil_append, strstr, hcmp, ok_bind, if_pos rfl]
    rfl
  | cons c x ih =>
    have hc : c ≠ 0 := fun h => hx (h ▸ List.mem_cons_self)
    have hrest := ih (fun h => hx (List.mem_cons_of_mem c h)) fun h => hlf (List.mem_cons_of_mem c h)
    have hcmp : strncmp (some c :: (x.map some ++ some 13 :: some 10 :: tail)) [13, 10] = .ok false := by
      unfold strncmp
      split
      · cases x with
        | nil => rfl
        | cons d x =>
          have hd : d ≠ 10 := fun h => hlf (h ▸ List.mem_cons_of_mem c List.mem_cons_self)
          show strncmp (some d :: _) [10] = .ok false
          unfold strncmp
          rw [if_neg hd]
      · rfl
    rw [List.map_cons, List.cons_append, strstr, hcmp, ok_bind, if_neg Bool.false_ne_true,
      if_neg hc, hrest]
    rfl

/-- A stream that begins with a line and with other bytes that end at the place of the terminator. -/
theorem Line.eq_of_prefix {line : Line} {rest x : List UInt8} {c : UInt8}
    (hlen : x.length = line.text.length) (h : x ++ [c] <+: line.bytes ++ rest) :
    x = line.text ∧ [c] <+: line.terminator.bytes ++ rest := by
  unfold Line.bytes at h
  rw [List.append_assoc] at h
  have htext : x <+: line.text ++ (line.terminator.bytes ++ rest) := (List.prefix_append x [c]).trans h
  obtain rfl : x = line.text := by
    obtain ⟨y, hy⟩ := htext
    exact (List.append_inj hy hlen).1
  exact ⟨rfl, (List.prefix_append_right_inj _).mp h⟩

/-! ### One line -/

variable {ulBufferLength : UInt64} {line : Line} {rest : List UInt8} {sizes : ℕ × ℕ}

/-- The search in a buffer that shows the line. -/
theorem ShowsLine.findLine_eq (h : ShowsLine ulBufferLength line sizes r) (k : ℕ) :
    findLine (peeked ulBufferLength sizes.1 r) k = .ok (line.text.length, line.bytes.length) := by
  obtain ⟨tail, hwithin⟩ := h.within
  cases hterm : line.terminator with
  | crlf =>
    have hbytes : line.bytes = line.text ++ [13, 10] := by rw [Line.bytes, hterm]; rfl
    have hfound := strstr_crlf line.nulFree line.noLF tail
    rw [hwithin, hbytes, List.map_append, List.append_assoc]
    show strstr (line.text.map some ++ some 13 :: some 10 :: tail) [13, 10] >>= _ = _
    rw [hfound, ok_bind, List.length_append]
    rfl
  | lf =>
    have hbytes : line.bytes = line.text ++ [10] := by rw [Line.bytes, hterm]; rfl
    obtain ⟨s, hs, hnone⟩ := h.lone hterm
    have hstrstr : strstr (peeked ulBufferLength sizes.1 r) [13, 10] = .ok none := by
      rw [hs.strstr_eq (by decide)]
      cases hfind : findSub [13, 10] s with
      | none => rfl
      | some i => exact absurd (findSub_isSome_iff.mp (by rw [hfind]; rfl)) hnone
    have hprefix : line.text ++ [10] <+: s := hbytes ▸ hs.isPrefix line.zero_notMem hwithin
    obtain ⟨q, rfl⟩ := hprefix
    have hmem : (10 : UInt8) ∈ line.text ++ [10] ++ q :=
      List.mem_append_left q (List.mem_append_right _ List.mem_cons_self)
    obtain ⟨p, q', hsplit, hp, hchr⟩ := hs.strchr_split (by decide) hmem
    have hlen : p.length = line.text.length := by
      have hindex := congrArg (List.idxOf 10) hsplit
      rw [List.append_assoc, List.idxOf_append_of_notMem line.noLF, List.idxOf_append_of_notMem hp,
        List.singleton_append, List.idxOf_cons_self, List.idxOf_cons_self] at hindex
      exact hindex.symm
    unfold findLine
    rw [hstrstr, ok_bind]
    dsimp only
    rw [hchr, ok_bind, hbytes, List.length_append, hlen]
    rfl

theorem length_peeked (size : ℕ) (hlength : 1 ≤ ulBufferLength.toNat)
    (hbuffer : r.buffer.length = ulBufferLength.toNat) :
    (ulBufferLength - 1).toNat = ulBufferLength.toNat - 1 ∧
      (peeked ulBufferLength size r).length = ulBufferLength.toNat := by
  have hone : (ulBufferLength - 1).toNat = ulBufferLength.toNat - 1 :=
    UInt64.toNat_sub_of_le _ _ (UInt64.le_iff_toNat_le.mpr hlength)
  refine ⟨hone, ?_⟩
  unfold peeked
  rw [length_filled, hbuffer]
  · rw [List.length_take]
    omega
  · rw [hone, hbuffer]
    exact Nat.sub_le _ _

/-- There is a byte of the buffer that the first `read` does not ask for. -/
theorem ShowsLine.one_lt_length (h : ShowsLine ulBufferLength line sizes r) :
    1 < (peeked ulBufferLength sizes.1 r).length := by
  obtain ⟨tail, hwithin⟩ := h.within
  cases hterm : line.terminator with
  | crlf =>
    rw [hwithin, Line.bytes, hterm, List.length_append, List.length_map, List.length_append]
    simp only [Terminator.bytes, List.length_cons, List.length_nil]
    omega
  | lf =>
    obtain ⟨s, hs, -⟩ := h.lone hterm
    have hprefix := (hs.isPrefix line.zero_notMem hwithin).length_le
    have := line.length_bytes
    have := hs.length_lt
    omega

/-- The second `read` takes the line, and the NUL that is written cuts off its terminator. -/
theorem read_line (rest : List UInt8) {buffer : Cells UInt8} {size : ℕ} (hroom : line.bytes.length ≤ buffer.length)
    (htaken : line.bytes.length ≤ size + 1) :
    ∃ buffer' m, read line.bytes.length 0 size true ⟨buffer, line.bytes ++ rest⟩ =
        .ok (.ok line.bytes.length, ⟨buffer', rest⟩) ∧
      store buffer' line.text.length 0 = .ok m ∧ m.length = buffer.length ∧ Holds m line.text := by
  have hbytes := line.length_bytes
  have hne := line.append_ne_nil rest
  have hread : read line.bytes.length 0 size true ⟨buffer, line.bytes ++ rest⟩ = _ :=
    read_eq size true (by omega) (by decide) hroom hne
  have hblock : (line.bytes ++ rest).take (min line.bytes.length (size + 1)) = line.bytes := by
    rw [Nat.min_eq_left htaken, List.take_left]
  dsimp only at hread
  rw [hblock, if_pos rfl, List.drop_left] at hread
  have hfilled : filled line.bytes.length line.bytes buffer =
      line.bytes.map some ++ buffer.drop line.bytes.length := by
    unfold filled
    rw [Nat.sub_self, List.replicate_zero, List.nil_append]
  obtain ⟨c, t, hterm⟩ := List.exists_cons_of_ne_nil line.terminator.bytes_ne_nil
  have hsplit : line.bytes.map some ++ buffer.drop line.bytes.length =
      line.text.map some ++ some c :: (t.map some ++ buffer.drop line.bytes.length) := by
    rw [Line.bytes, hterm, List.map_append, List.append_assoc]
    rfl
  have hstore := store_append (line.text.map some)
    (t.map some ++ buffer.drop line.bytes.length) (some c) 0
  rw [List.length_map] at hstore
  refine ⟨_, line.text.map some ++ some 0 :: (t.map some ++ buffer.drop line.bytes.length), hread, ?_,
    ?_, line.nulFree, _, rfl⟩
  · rw [hfilled, hsplit]
    exact hstore
  · have hlength := congrArg List.length hsplit
    rw [List.length_append, List.length_map, List.length_drop] at hlength
    rw [List.length_append, List.length_cons] at hlength ⊢
    omega

/-- The line is read where the buffer shows it. -/
theorem ShowsLine.reads (h : ShowsLine ulBufferLength line sizes r)
    (hbuffer : r.buffer.length = ulBufferLength.toNat) (hlength : 1 ≤ ulBufferLength.toNat)
    (hmicros : micros < 1000000) (hunread : r.unread = line.bytes ++ rest) :
    ∃ r', ReadsLine ulBufferLength micros line rest sizes r r' := by
  obtain ⟨hone, hpeeked⟩ := length_peeked sizes.1 hlength hbuffer
  obtain ⟨tail, hwithin⟩ := h.within
  have hpositive := h.one_lt_length
  have hroom : line.bytes.length ≤ (peeked ulBufferLength sizes.1 r).length := by
    rw [hwithin, List.length_append, List.length_map]
    exact Nat.le_add_right _ _
  have hne : r.unread ≠ [] := by
    rw [hunread]
    exact line.append_ne_nil rest
  have hfirst : read (ulBufferLength - 1).toNat micros sizes.1 false r = _ :=
    read_eq sizes.1 false (by omega) hmicros (by omega) hne
  obtain ⟨buffer', m, hsecond, hstore, hlen, hholds⟩ := read_line rest hroom h.taken
  refine ⟨⟨m, rest⟩, ?_, hlen.trans hpeeked, hholds, rfl⟩
  unfold readLine
  rw [hfirst, ok_bind]
  dsimp only
  show findLine (peeked ulBufferLength sizes.1 r) _ >>= _ = _
  rw [h.findLine_eq, ok_bind]
  dsimp only
  rw [if_neg nofun]
  show read line.bytes.length 0 sizes.2 true ⟨peeked ulBufferLength sizes.1 r, r.unread⟩ >>= _ = _
  rw [hunread, hsecond, ok_bind]
  dsimp only
  rw [hstore, ok_bind]

/-- What a search found when the call then leaves what follows the line. -/
theorem ReadsLine.inv {r' : Reader} (h : ReadsLine ulBufferLength micros line rest sizes r r')
    (hpositive : 0 < (ulBufferLength - 1).toNat) (hbuffer : (ulBufferLength - 1).toNat ≤ r.buffer.length)
    (hmicros : micros < 1000000) (hunread : r.unread = line.bytes ++ rest) :
    ∃ bytes, findLine (peeked ulBufferLength sizes.1 r)
        (r.unread.take (min (ulBufferLength - 1).toNat (sizes.1 + 1))).length =
          .ok (line.text.length, bytes) ∧
      line.bytes.length ≤ bytes ∧ line.bytes.length ≤ sizes.2 + 1 := by
  have hne : r.unread ≠ [] := by
    rw [hunread]
    exact line.append_ne_nil rest
  have hfirst : read (ulBufferLength - 1).toNat micros sizes.1 false r = _ :=
    read_eq sizes.1 false hpositive hmicros hbuffer hne
  obtain ⟨hrun, -, -, hrest⟩ := h
  unfold readLine at hrun
  rw [hfirst, ok_bind] at hrun
  dsimp only at hrun
  rw [if_neg nofun] at hrun
  obtain ⟨⟨chars, bytes⟩, hfind, hrun⟩ := bind_eq_ok.mp hrun
  obtain ⟨⟨result, r₂⟩, hsecond, hrun⟩ := bind_eq_ok.mp hrun
  cases result with
  | error errRead => cases hrun
  | ok k =>
    obtain ⟨m, hstore, hrun⟩ := bind_eq_ok.mp hrun
    obtain ⟨hk, -, hunread₂⟩ := read_inv hsecond
    obtain ⟨hchars, rfl⟩ := Prod.mk.inj (Except.ok.inj hrun)
    obtain rfl : chars = line.text.length := Except.ok.inj hchars
    dsimp only at hk hunread₂ hrest
    rw [if_pos rfl, hrest, hunread] at hunread₂
    rw [hunread, List.length_take] at hk
    have hlen := congrArg List.length hunread₂
    rw [List.length_drop, List.length_append] at hlen
    rw [List.length_append] at hk
    exact ⟨bytes, hfind, by omega, by omega⟩

/-- Without room for a character, or with a time-out that `read` refuses, no line is read. -/
theorem not_readsLine_of_refused {r' : Reader}
    (h : (ulBufferLength - 1).toNat = 0 ∨ 1000000 ≤ micros) :
    ¬ReadsLine ulBufferLength micros line rest sizes r r' := by
  rintro ⟨hrun, -⟩
  have hwrong : read (ulBufferLength - 1).toNat micros sizes.1 false r =
      .ok (.error .activationWrong, r) := if_pos (by omega)
  unfold readLine at hrun
  rw [hwrong, ok_bind] at hrun
  cases hrun

/-- A line that is read was shown. -/
theorem ReadsLine.shows {r' : Reader} (h : ReadsLine ulBufferLength micros line rest sizes r r')
    (hbuffer : r.buffer.length = ulBufferLength.toNat) (hlength : 1 ≤ ulBufferLength.toNat)
    (hmicros : micros < 1000000) (hunread : r.unread = line.bytes ++ rest) :
    ShowsLine ulBufferLength line sizes r := by
  obtain ⟨hone, hpeeked⟩ := length_peeked sizes.1 hlength hbuffer
  have hpositive : 0 < (ulBufferLength - 1).toNat :=
    Nat.pos_of_ne_zero fun hzero => not_readsLine_of_refused (Or.inl hzero) h
  obtain ⟨bytes, hfind, hbytes, htaken⟩ := h.inv hpositive (by omega) hmicros hunread
  -- bytes of the buffer before its last one come from the stream
  have hstream : ∀ (x : List UInt8) (c : UInt8) (tail : Cells UInt8),
      peeked ulBufferLength sizes.1 r = x.map some ++ some c :: tail → 0 ∉ x → c ≠ 0 → tail ≠ [] →
      x.length = line.text.length →
      x = line.text ∧ [c] <+: line.terminator.bytes ++ rest := by
    intro x c tail htail hx hc hne hlen
    have hsplit : peeked ulBufferLength sizes.1 r = (x ++ [c]).map some ++ tail := by
      rw [htail, List.map_append, List.append_assoc]
      rfl
    have hroom : (x ++ [c]).length ≤ (ulBufferLength - 1).toNat := by
      have := congrArg List.length hsplit
      rw [hpeeked, List.length_append, List.length_map] at this
      have := List.length_pos_of_ne_nil hne
      omega
    have hnul : 0 ∉ x ++ [c] := by
      intro h0
      rcases List.mem_append.mp h0 with h0 | h0
      · exact hx h0
      · exact hc (List.mem_singleton.mp h0).symm
    have hblock := prefix_of_filled (by rw [List.length_take]; omega) hnul hroom hsplit
    refine Line.eq_of_prefix hlen ?_
    rw [← hunread]
    exact hblock.trans (List.take_prefix _ _)
  unfold findLine at hfind
  obtain ⟨found, hstrstr, hfind⟩ := bind_eq_ok.mp hfind
  have hinv := strstr_inv hstrstr
  cases found with
  | some i =>
    cases hfind
    obtain ⟨x, tail, htail, hx, hnul⟩ := hinv
    obtain ⟨rfl, hterm⟩ := hstream x 13 (some 10 :: tail) htail hnul (by decide) nofun hx
    have hcrlf : line.terminator = .crlf := by
      cases hterminator : line.terminator with
      | crlf => rfl
      | lf =>
        rw [hterminator] at hterm
        exact absurd (List.cons_prefix_cons.mp hterm).1 (by decide)
    refine ⟨⟨tail, ?_⟩, fun hlf => absurd (hcrlf.symm.trans hlf) nofun, htaken⟩
    rw [htail, Line.bytes, hcrlf, List.map_append, List.append_assoc]
    rfl
  | none =>
    obtain ⟨s, hs⟩ := hinv
    have hnone : ¬[13, 10] <:+: s := by
      intro hinfix
      rw [hs.strstr_eq (by decide)] at hstrstr
      have hsome := findSub_isSome_iff.mpr hinfix
      rw [Except.ok.inj hstrstr] at hsome
      cases hsome
    obtain ⟨found, hstrchr, hfind⟩ := bind_eq_ok.mp hfind
    cases found with
    | none =>
      -- without a terminator nothing is removed behind the line
      obtain ⟨hchars, hremoved⟩ := Prod.mk.inj (Except.ok.inj hfind)
      have := line.length_bytes
      omega
    | some i =>
      cases hfind
      have hmem : (10 : UInt8) ∈ s := by
        by_contra hmem
        rw [hs.strchr_none (by decide) hmem] at hstrchr
        cases hstrchr
      obtain ⟨p, q, rfl, hp, hchr⟩ := hs.strchr_split (by decide) hmem
      have hlen : p.length = line.text.length :=
        Option.some.inj (Except.ok.inj (hchr.symm.trans hstrchr))
      obtain ⟨tail, htail⟩ := hs.split
      have hsplit : peeked ulBufferLength sizes.1 r =
          p.map some ++ some 10 :: (q.map some ++ some 0 :: tail) := by
        rw [htail, List.map_append, List.append_assoc]
        rfl
      obtain ⟨rfl, hterm⟩ := hstream p 10 _ hsplit
        (fun h0 => hs.nulFree (List.mem_append_left _ h0)) (by decide)
        (List.append_ne_nil_of_right_ne_nil _ nofun) hlen
      have hlf : line.terminator = .lf := by
        cases hterminator : line.terminator with
        | lf => rfl
        | crlf =>
          rw [hterminator] at hterm
          exact absurd (List.cons_prefix_cons.mp hterm).1 (by decide)
      refine ⟨⟨q.map some ++ some 0 :: tail, ?_⟩, fun _ => ⟨_, hs, hnone⟩, htaken⟩
      rw [hsplit, Line.bytes, hlf, List.map_append, List.append_assoc]
      rfl

theorem readsLine_iff (hbuffer : r.buffer.length = ulBufferLength.toNat)
    (hlength : 1 ≤ ulBufferLength.toNat) (hmicros : micros < 1000000)
    (hunread : r.unread = line.bytes ++ rest) :
    (∃ r', ReadsLine ulBufferLength micros line rest sizes r r') ↔
      ShowsLine ulBufferLength line sizes r :=
  ⟨fun ⟨_, h⟩ => h.shows hbuffer hlength hmicros hunread,
    fun h => h.reads hbuffer hlength hmicros hunread⟩

/-! ### All lines -/

/-- The bytes of the lines that the calls are for. -/
def stream (calls : List (Line × ℕ × ℕ)) : List UInt8 := calls.flatMap fun call => call.1.bytes

/-- Calls one after the other return the lines, each with what its `recvfrom`s give. -/
def ReadsLines (ulBufferLength : UInt64) (micros : ℕ) : List (Line × ℕ × ℕ) → Reader → Prop
  | [], _ => True
  | (line, sizes) :: calls, r =>
    ∃ r', ReadsLine ulBufferLength micros line (stream calls) sizes r r' ∧
      ReadsLines ulBufferLength micros calls r'

/-- Each call is shown its line by the buffer that the one before it has left. -/
def ShowsLines (ulBufferLength : UInt64) (micros : ℕ) : List (Line × ℕ × ℕ) → Reader → Prop
  | [], _ => True
  | (line, sizes) :: calls, r =>
    ShowsLine ulBufferLength line sizes r ∧
      ∀ r', ReadsLine ulBufferLength micros line (stream calls) sizes r r' →
        ShowsLines ulBufferLength micros calls r'

theorem ReadsLine.unique {r' r'' : Reader} (h : ReadsLine ulBufferLength micros line rest sizes r r')
    (h' : ReadsLine ulBufferLength micros line rest sizes r r'') : r' = r'' :=
  (Prod.mk.inj (Except.ok.inj (h.1.symm.trans h'.1))).2

theorem readsLines_iff_showsLines (hmicros : micros < 1000000) (calls : List (Line × ℕ × ℕ))
    (hbuffer : r.buffer.length = ulBufferLength.toNat)
    (hshort : ∀ call ∈ calls, call.1.text.length < ulBufferLength.toNat)
    (hunread : r.unread = stream calls) :
    ReadsLines ulBufferLength micros calls r ↔ ShowsLines ulBufferLength micros calls r := by
  induction calls generalizing r with
  | nil => exact Iff.rfl
  | cons call calls ih =>
    obtain ⟨line, sizes⟩ := call
    have hline := hshort _ List.mem_cons_self
    have hone : (∃ r', ReadsLine ulBufferLength micros line (stream calls) sizes r r') ↔
        ShowsLine ulBufferLength line sizes r :=
      readsLine_iff hbuffer (Nat.succ_le_of_lt (Nat.lt_of_le_of_lt (Nat.zero_le _) hline)) hmicros hunread
    have hrest : ∀ r', ReadsLine ulBufferLength micros line (stream calls) sizes r r' →
        (ReadsLines ulBufferLength micros calls r' ↔ ShowsLines ulBufferLength micros calls r') :=
      fun r' h => ih h.2.1 (fun call hcall => hshort call (List.mem_cons_of_mem _ hcall)) h.2.2.2
    constructor
    · rintro ⟨r', h, hcalls⟩
      refine ⟨hone.mp ⟨r', h⟩, fun r'' h' => ?_⟩
      obtain rfl := h.unique h'
      exact (hrest r' h).mp hcalls
    · rintro ⟨hshows, hcalls⟩
      obtain ⟨r', h⟩ := hone.mpr hshows
      exact ⟨r', h, (hrest r' h).mpr (hcalls r' h)⟩

/-- **`readLine` returns the lines of a stream** just when `read` takes the time-out, the buffer shows
each line with its terminator, a single LF with no CR LF behind it, and the second read of each call is
not cut. -/
theorem readsLines_iff (calls : List (Line × ℕ × ℕ)) (hbuffer : r.buffer.length = ulBufferLength.toNat)
    (hshort : ∀ call ∈ calls, call.1.text.length < ulBufferLength.toNat)
    (hunread : r.unread = stream calls) :
    ReadsLines ulBufferLength micros calls r ↔
      (calls = [] ∨ micros < 1000000) ∧ ShowsLines ulBufferLength micros calls r := by
  by_cases hmicros : micros < 1000000
  · rw [and_iff_right (Or.inr hmicros)]
    exact readsLines_iff_showsLines hmicros calls hbuffer hshort hunread
  · cases calls with
    | nil => exact (and_iff_right (Or.inl rfl)).symm
    | cons call calls =>
      refine iff_of_false ?_ fun h => h.1.elim (List.cons_ne_nil call calls) hmicros
      rintro ⟨r', h, -⟩
      exact not_readsLine_of_refused (Or.inr (Nat.le_of_not_lt hmicros)) h

/-- The line "a", ended by LF. -/
def lineA : Line := ⟨[97], .lf, by decide, by decide, by decide⟩

/-- The line "b", ended by CR LF. -/
def lineB : Line := ⟨[98], .crlf, by decide, by decide, nofun⟩

/-- A buffer of eight bytes, and the two lines. -/
def twoLines : Reader := ⟨List.replicate 8 (some 0), [97, 10, 98, 13, 10]⟩

theorem readsLines_iff_cut :
    ReadsLines 8 0 [(lineA, 1, 1), (lineB, 2, 2)] twoLines ↔
      ([(lineA, 1, 1), (lineB, 2, 2)] = [] ∨ 0 < 1000000) ∧
        ShowsLines 8 0 [(lineA, 1, 1), (lineB, 2, 2)] twoLines :=
  readsLines_iff _ rfl (by
    intro call hcall
    rcases List.mem_cons.mp hcall with rfl | hcall
    · decide
    · obtain rfl := List.mem_singleton.mp hcall
      decide) rfl

/-- Both lines in one block come back as one. -/
theorem not_readsLines_together :
    ¬ReadsLines 8 0 [(lineA, 4, 4), (lineB, 4, 4)] twoLines := by
  rintro ⟨r', ⟨hrun, -⟩, -⟩
  have hlength : ((readLine 8 0 (4, 4) twoLines).map fun result => result.1.toOption) = .ok (some 3) := by
    decide +kernel
  rw [hrun] at hlength
  have hthree : lineA.text.length = 3 := Option.some.inj (Except.ok.inj hlength)
  exact absurd hthree (by decide)

end SocketImpl

end CatraLibraries
