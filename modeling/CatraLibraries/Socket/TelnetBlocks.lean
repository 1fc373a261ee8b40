/-
# The Telnet decoder, block after block

A stream comes in blocks as the network cuts it, and `readByTelnet` calls the decoder for each of
them, in the buffer of that block; only `_lIAC_State` goes from one call to the next.

What a call keeps and answers is a function of the state and of the bytes (`kept`, `responses`), and
these functions follow a cut of the bytes with the state behind the first part.  So the cut does not
matter, wherever it falls in a command.
-/
import CatraLibraries.Socket.Telnet

namespace CatraLibraries

namespace SocketImpl

open Memory CString

/-- A block of received bytes in its buffer, with a cell behind it for the NUL. -/
structure Block where
  received : List UInt8
  behind : Option UInt8
  rest : Cells UInt8

def Block.pucBuffer (b : Block) : Cells UInt8 := b.received.map some ++ b.behind :: b.rest

/-- The data that a call leaves at the front of the buffer. -/
def Telnet.data (t : Telnet) : Cells UInt8 := t.pucBuffer.take t.lBufferProcessedIndex

/-- What the calls give together. -/
structure Traffic where
  data : Cells UInt8
  responses : List UInt8
  lIAC_State : IACState
  deriving DecidableEq

/-- The traffic of one call in front of that of the calls behind it. -/
def Traffic.behind (t : Telnet) (r : Traffic) : Traffic :=
  ⟨t.data ++ r.data, t.responses ++ r.responses, r.lIAC_State⟩

/-- The calls for the blocks, one after the other; a call that refuses its arguments ends them. -/
def decodeBlocks : IACState → List Block → Except Fault (Option Traffic)
  | lIAC_State, [] => .ok (some ⟨[], [], lIAC_State⟩)
  | lIAC_State, b :: blocks => do
    match ← telnetDecoder lIAC_State b.pucBuffer b.received.length with
    | none => return none
    | some t => return (← decodeBlocks t.lIAC_State blocks).map (Traffic.behind t)

/-- The bytes of all blocks. -/
def streamOf (blocks : List Block) : List UInt8 := blocks.flatMap Block.received

theorem responses_append (state : IACState) (s t : List UInt8) :
    responses state (s ++ t) = responses state s ++ responses (stateAfter state s) t := by
  induction s generalizing state with
  | nil => rfl
  | cons c s ih =>
    show (decode state c).response ++ responses (decode state c).state (s ++ t) = _
    rw [ih, ← List.append_assoc]
    rfl

/-- The data of a stream. -/
def dataOf (state : IACState) (s : List UInt8) : Cells UInt8 :=
  ((kept state s).filterMap id).map some

theorem dataOf_append (state : IACState) (s t : List UInt8) :
    dataOf state (s ++ t) = dataOf state s ++ dataOf (stateAfter state s) t := by
  simp only [dataOf, kept_append, List.filterMap_append, List.map_append]

/-! ### One call -/

theorem take_of_terminated {m : Cells UInt8} {s : List UInt8} (h : Terminated m s) :
    m.take s.length = s.map some := by
  obtain ⟨rest, rfl⟩ := h
  rw [← List.length_map (f := some), List.take_left]

/-- **One call** keeps the data of its block and gives the answers to it. -/
theorem telnetDecoder_block (state : IACState) (b : Block) :
    ∃ t, telnetDecoder state b.pucBuffer b.received.length = .ok (some t) ∧
      t.data = dataOf state b.received ∧ t.lIAC_State = stateAfter state b.received ∧
      t.responses = responses state b.received := by
  obtain ⟨t, hrun, hbuffer, hindex, hstate, hresponses⟩ :=
    telnetDecoder_eq state b.received b.behind b.rest
  refine ⟨t, hrun, ?_, hstate, hresponses⟩
  show t.pucBuffer.take t.lBufferProcessedIndex = _
  rw [hindex, take_of_terminated hbuffer]
  rfl

/-- Before each character of a call the place to write is not behind the place to read; the call
goes on from there. -/
theorem telnetDecoder_behind (state : IACState) (b : Block) {count : ℕ}
    (h : count ≤ b.received.length) :
    ∃ t, telnetLoop count 0 ⟨b.pucBuffer, 0, state, []⟩ = .ok t ∧
      t.lBufferProcessedIndex ≤ count ∧
      telnetDecoder state b.pucBuffer b.received.length =
        telnetLoop (b.received.length - count) count t >>= Telnet.terminate := by
  have hlength : (b.received.take count).length = count := List.length_take_of_le h
  obtain ⟨between, hloop⟩ := telnetLoop_eq (b.received.take count) [] []
    ((b.received.drop count).map some ++ b.behind :: b.rest) state []
  have hbuffer : (b.received.take count).map some ++
      ((b.received.drop count).map some ++ b.behind :: b.rest) = b.pucBuffer := by
    rw [← List.append_assoc, ← List.map_append, List.take_append_drop]
    rfl
  simp only [List.map_nil, List.nil_append, List.length_nil, Nat.add_zero, hlength, hbuffer]
    at hloop
  refine ⟨_, hloop, ?_, ?_⟩
  · -- at most one character is kept for each one read
    calc ((kept state (b.received.take count)).filterMap id).length
        ≤ (kept state (b.received.take count)).length := List.length_filterMap_le id _
      _ = count := by rw [length_kept, hlength]
  · unfold telnetDecoder
    rw [if_neg (by omega), Int.toNat_natCast]
    nth_rewrite 1 [← Nat.add_sub_cancel' h]
    rw [telnetLoop_add, hloop, ok_bind, Nat.zero_add]

/-! ### The calls together -/

theorem decodeBlocks_eq (state : IACState) (blocks : List Block) :
    decodeBlocks state blocks = .ok (some ⟨dataOf state (streamOf blocks),
      responses state (streamOf blocks), stateAfter state (streamOf blocks)⟩) := by
  induction blocks generalizing state with
  | nil => rfl
  | cons b blocks ih =>
    obtain ⟨t, hrun, hdata, hstate, hresponses⟩ := telnetDecoder_block state b
    have hstream : streamOf (b :: blocks) = b.received ++ streamOf blocks := List.flatMap_cons
    unfold decodeBlocks
    rw [hrun, ok_bind]
    dsimp only
    rw [ih, ok_bind, hstream, dataOf_append, responses_append, stateAfter_append, ← hstate,
      ← hdata, ← hresponses]
    rfl

/-- **The cut into blocks does not matter.**  The calls for the blocks succeed and give together
what one call for the whole stream gives, and in no call the place to write passes the place to
read: before each character it is at most the index of that character, and the call goes on from
there. -/
theorem decodeBlocks_cut (state : IACState) (blocks : List Block) (behind : Option UInt8)
    (rest : Cells UInt8) :
    (∃ t, telnetDecoder state (Block.pucBuffer ⟨streamOf blocks, behind, rest⟩)
        (streamOf blocks).length = .ok (some t) ∧
      decodeBlocks state blocks = .ok (some ⟨t.data, t.responses, t.lIAC_State⟩)) ∧
    ∀ (state : IACState) (b : Block) (count : ℕ), count ≤ b.received.length →
      ∃ t, telnetLoop count 0 ⟨b.pucBuffer, 0, state, []⟩ = .ok t ∧
        t.lBufferProcessedIndex ≤ count ∧
        telnetDecoder state b.pucBuffer b.received.length =
          telnetLoop (b.received.length - count) count t >>= Telnet.terminate := by
  refine ⟨?_, fun state b count h => telnetDecoder_behind state b h⟩
  obtain ⟨t, hrun, hdata, hstate, hresponses⟩ :=
    telnetDecoder_block state ⟨streamOf blocks, behind, rest⟩
  refine ⟨t, hrun, ?_⟩
  rw [decodeBlocks_eq, hdata, hstate, hresponses]

end SocketImpl

end CatraLibraries
