/-
# The Telnet decoder

`SocketImpl::telnetDecoder` takes the commands out of the bytes of a buffer, in place, and answers
some of them.  Its state is kept from one buffer to the next.

All writes of answers succeed.
-/
import CatraLibraries.Lib.CString

namespace CatraLibraries

namespace SocketImpl

open Memory CString

/-! ### The decoder -/

/-- `SCK_TN_IAC`, and so on. -/
abbrev tnIAC : UInt8 := 255
abbrev tnDO : UInt8 := 253
abbrev tnDONT : UInt8 := 254
abbrev tnWILL : UInt8 := 251
abbrev tnWONT : UInt8 := 252
abbrev tnSB : UInt8 := 250
abbrev tnSE : UInt8 := 240
abbrev tnTERMTYPE : UInt8 := 24
abbrev tnSEND : UInt8 := 1
abbrev tnIS : UInt8 := 0

/-- The values of `_lIAC_State`; `SCK_IAC_SE` is never stored. -/
inductive IACState
  | reset
  | opcode
  | will
  | «do»
  | sb
  | termtype
  | send
  | iac
  deriving DecidableEq, Repr

/-- What one character leads to: the next state, what is written for it, and what is answered. -/
structure Decoded where
  state : IACState
  kept : Option UInt8
  response : List UInt8
  deriving DecidableEq, Repr

/-- The body of the loop. -/
def decode (lIAC_State : IACState) (cCharToProcess : UInt8) : Decoded :=
  match lIAC_State with
  | .opcode =>
    if cCharToProcess = tnWILL then ⟨.will, none, []⟩
    else if cCharToProcess = tnDO then ⟨.do, none, []⟩
    else if cCharToProcess = tnSB then ⟨.sb, none, []⟩
    else if cCharToProcess = tnIAC then ⟨.reset, some 255, []⟩
    else ⟨.reset, none, []⟩
  | .sb => if cCharToProcess = tnTERMTYPE then ⟨.termtype, none, []⟩ else ⟨.reset, none, []⟩
  | .termtype => if cCharToProcess = tnSEND then ⟨.send, none, []⟩ else ⟨.reset, none, []⟩
  | .send => if cCharToProcess = tnIAC then ⟨.iac, none, []⟩ else ⟨.reset, none, []⟩
  | .iac =>
    if cCharToProcess = tnSE then
      ⟨.reset, none, [tnIAC, tnSB, tnTERMTYPE, tnIS, 100, 117, 109, 98, tnIAC, tnSE]⟩
    else ⟨.reset, none, []⟩
  | .will => ⟨.reset, none, [tnIAC, tnDONT, cCharToProcess]⟩
  | .do =>
    if cCharToProcess = tnTERMTYPE then ⟨.reset, none, [tnIAC, tnWILL, tnTERMTYPE]⟩
    else ⟨.reset, none, [tnIAC, tnWONT, cCharToProcess]⟩
  | .reset =>
    if cCharToProcess = tnIAC then ⟨.opcode, none, []⟩ else ⟨.reset, some cCharToProcess, []⟩

/-- The buffer, the number of characters that are kept in it, the state and the answers. -/
structure Telnet where
  pucBuffer : Cells UInt8
  lBufferProcessedIndex : ℕ
  lIAC_State : IACState
  responses : List UInt8
  deriving DecidableEq, Repr

/-- The loop, with the number of characters that are left. -/
def telnetLoop : ℕ → ℕ → Telnet → Except Fault Telnet
  | 0, _, t => .ok t
  | count + 1, lBufferToProcessIndex, t =>
    load t.pucBuffer lBufferToProcessIndex >>= fun cCharToProcess =>
    let decoded := decode t.lIAC_State cCharToProcess
    match decoded.kept with
    | none =>
      telnetLoop count (lBufferToProcessIndex + 1)
        { t with lIAC_State := decoded.state, responses := t.responses ++ decoded.response }
    | some c =>
      store t.pucBuffer t.lBufferProcessedIndex c >>= fun pucBuffer =>
      telnetLoop count (lBufferToProcessIndex + 1)
        ⟨pucBuffer, t.lBufferProcessedIndex + 1, decoded.state, t.responses ++ decoded.response⟩

/-- The loop may stop before any character and go on from there. -/
theorem telnetLoop_add (count rest lBufferToProcessIndex : ℕ) (t : Telnet) :
    telnetLoop (count + rest) lBufferToProcessIndex t =
      telnetLoop count lBufferToProcessIndex t >>= telnetLoop rest (lBufferToProcessIndex + count)
    := by
  induction count generalizing lBufferToProcessIndex t with
  | zero => rw [Nat.zero_add]; rfl
  | succ count ih =>
    rw [Nat.add_right_comm, telnetLoop, telnetLoop, bind_assoc]
    congr 1
    funext c
    dsimp only
    rw [show lBufferToProcessIndex + (count + 1) = lBufferToProcessIndex + 1 + count by omega]
    cases (decode t.lIAC_State c).kept with
    | none => exact ih _ _
    | some b =>
      dsimp only
      rw [bind_assoc]
      congr 1
      funext pucBuffer
      exact ih _ _

/-- The NUL behind the data. -/
def Telnet.terminate (t : Telnet) : Except Fault (Option Telnet) :=
  store t.pucBuffer t.lBufferProcessedIndex 0 >>= fun pucBuffer =>
  .ok (some { t with pucBuffer := pucBuffer })

/-- `telnetDecoder`; a negative length is refused. -/
def telnetDecoder (lIAC_State : IACState) (pucBuffer : Cells UInt8) (lBufferToProcessLength : ℤ) :
    Except Fault (Option Telnet) :=
  if lBufferToProcessLength < 0 then .ok none
  else
    telnetLoop lBufferToProcessLength.toNat 0 ⟨pucBuffer, 0, lIAC_State, []⟩ >>= Telnet.terminate

/-- What is written for each character. -/
def kept : IACState → List UInt8 → List (Option UInt8)
  | _, [] => []
  | state, c :: s => (decode state c).kept :: kept (decode state c).state s

/-- The state behind the characters. -/
def stateAfter : IACState → List UInt8 → IACState
  | state, [] => state
  | state, c :: s => stateAfter (decode state c).state s

/-- The answers. -/
def responses : IACState → List UInt8 → List UInt8
  | _, [] => []
  | state, c :: s => (decode state c).response ++ responses (decode state c).state s

variable {state : IACState} {s : List UInt8}

theorem length_kept (state : IACState) (s : List UInt8) : (kept state s).length = s.length := by
  induction s generalizing state with
  | nil => rfl
  | cons c s ih => exact congrArg Nat.succ (ih _)

theorem kept_append (state : IACState) (s t : List UInt8) :
    kept state (s ++ t) = kept state s ++ kept (stateAfter state s) t := by
  induction s generalizing state with
  | nil => rfl
  | cons c s ih => exact congrArg (List.cons _) (ih _)

theorem stateAfter_append (state : IACState) (s t : List UInt8) :
    stateAfter state (s ++ t) = stateAfter (stateAfter state s) t := by
  induction s generalizing state with
  | nil => rfl
  | cons c s ih => exact ih _

/-- The characters that are kept stand at the front of the buffer; what is between them and the
characters to come does not matter. -/
theorem telnetLoop_eq (s data : List UInt8) (between tail : Cells UInt8) (state : IACState)
    (answered : List UInt8) :
    ∃ between', telnetLoop s.length (data.length + between.length)
        ⟨data.map some ++ (between ++ (s.map some ++ tail)), data.length, state, answered⟩ =
      .ok ⟨(data ++ (kept state s).filterMap id).map some ++ (between' ++ tail),
        (data ++ (kept state s).filterMap id).length, stateAfter state s,
        answered ++ responses state s⟩ := by
  induction s generalizing data between state answered with
  | nil =>
    refine ⟨between, ?_⟩
    unfold kept responses stateAfter telnetLoop
    rw [List.filterMap_nil, List.append_nil, List.append_nil]
    rfl
  | cons c s ih =>
    have hload : load (data.map some ++ (between ++ ((c :: s).map some ++ tail)))
        (data.length + between.length) = .ok c := by
      have h := load_append (data.map some ++ between) (s.map some ++ tail) c
      rw [List.length_append, List.length_map, List.append_assoc] at h
      exact h
    rw [List.length_cons, telnetLoop, hload, ok_bind]
    dsimp only
    cases hkept : (decode state c).kept with
    | none =>
      obtain ⟨between', h⟩ := ih data (between ++ [some c]) (decode state c).state
        (answered ++ (decode state c).response)
      refine ⟨between', ?_⟩
      rw [List.append_assoc, List.length_append] at h
      dsimp only [kept, responses, stateAfter]
      rw [hkept, List.filterMap_cons_none rfl, ← List.append_assoc answered]
      exact h
    | some b =>
      obtain ⟨d, between₁, hsplit⟩ := List.exists_cons_of_ne_nil
        (List.append_ne_nil_of_right_ne_nil between (List.cons_ne_nil (some c) []))
      have hlength : between₁.length = between.length := by
        have := congrArg List.length hsplit
        rw [List.length_append, List.length_singleton, List.length_cons] at this
        exact (Nat.succ.inj this).symm
      have hbuffer : data.map some ++ (between ++ ((c :: s).map some ++ tail)) =
          data.map some ++ d :: (between₁ ++ (s.map some ++ tail)) := by
        rw [List.map_cons, List.cons_append, List.append_cons between, hsplit]
        rfl
      have hstore := store_append (data.map some) (between₁ ++ (s.map some ++ tail)) d b
      obtain ⟨between', h⟩ := ih (data ++ [b]) between₁ (decode state c).state
        (answered ++ (decode state c).response)
      refine ⟨between', ?_⟩
      dsimp only
      rw [List.length_map] at hstore
      rw [hbuffer, hstore, ok_bind]
      dsimp only [kept, responses, stateAfter]
      rw [hkept, ← List.append_assoc answered]
      rw [List.map_append, List.length_append, List.append_assoc, hlength] at h
      rw [show data ++ (some b :: kept (decode state c).state s).filterMap id =
        data ++ [b] ++ (kept (decode state c).state s).filterMap id by rw [List.append_assoc]; rfl]
      rw [show data.length + between.length + 1 = data.length + [b].length + between.length by
        rw [List.length_singleton]; omega]
      exact h

/-- A buffer with a byte behind the characters has room for the NUL. -/
theorem telnetDecoder_eq (state : IACState) (s : List UInt8) (behind : Option UInt8)
    (rest : Cells UInt8) :
    ∃ t, telnetDecoder state (s.map some ++ behind :: rest) s.length = .ok (some t) ∧
      Terminated t.pucBuffer ((kept state s).filterMap id) ∧
      t.lBufferProcessedIndex = ((kept state s).filterMap id).length ∧
      t.lIAC_State = stateAfter state s ∧ t.responses = responses state s := by
  obtain ⟨between, hloop⟩ := telnetLoop_eq s [] [] (behind :: rest) state []
  obtain ⟨cell, tail, hcell⟩ := List.exists_cons_of_ne_nil
    (List.append_ne_nil_of_right_ne_nil between (List.cons_ne_nil behind rest))
  have hstore := store_append (((kept state s).filterMap id).map some) tail cell 0
  rw [List.length_map] at hstore
  rw [List.nil_append, hcell] at hloop
  unfold telnetDecoder
  rw [if_neg (by omega), Int.toNat_natCast]
  refine ⟨⟨_, _, _, _⟩, ?_, ⟨tail, rfl⟩, rfl, rfl, rfl⟩
  show telnetLoop s.length 0 ⟨s.map some ++ behind :: rest, 0, state, []⟩ >>= _ = _
  rw [show telnetLoop s.length 0 ⟨s.map some ++ behind :: rest, 0, state, []⟩ = _ from hloop, ok_bind]
  show store (((kept state s).filterMap id).map some ++ cell :: tail) _ 0 >>= _ = _
  rw [List.nil_append, hstore, ok_bind]
  rfl

/-! ### Telnet streams -/

inductive Verb
  | will
  | wont
  | «do»
  | dont
  deriving DecidableEq, Repr

def Verb.code : Verb → UInt8
  | .will => tnWILL
  | .wont => tnWONT
  | .do => tnDO
  | .dont => tnDONT

/-- What a Telnet stream is made of. -/
inductive Item
  /-- A byte of data. -/
  | data (c : UInt8) (hc : c ≠ tnIAC)
  /-- A data byte 255. -/
  | quoted
  /-- Another command of two bytes. -/
  | command (c : UInt8) (hc : c ∉ [tnIAC, tnSB, tnWILL, tnWONT, tnDO, tnDONT])
  | negotiate (verb : Verb) (option : UInt8)
  | subnegotiate (option : UInt8) (parameters : List UInt8)

/-- A byte 255 is doubled in the parameters. -/
def quote (parameters : List UInt8) : List UInt8 :=
  parameters.flatMap fun c => if c = tnIAC then [tnIAC, tnIAC] else [c]

def Item.bytes : Item → List UInt8
  | .data c _ => [c]
  | .quoted => [tnIAC, tnIAC]
  | .command c _ => [tnIAC, c]
  | .negotiate verb option => [tnIAC, verb.code, option]
  | .subnegotiate option parameters => tnIAC :: tnSB :: option :: (quote parameters ++ [tnIAC, tnSE])

/-- What should be kept for each byte of an item. -/
def Item.data? : Item → List (Option UInt8)
  | .data c _ => [some c]
  | .quoted => [none, some 255]
  | item => item.bytes.map fun _ => none

/-- The bytes of a stream, and what should be kept for each. -/
def telnetBytes (items : List Item) : List UInt8 := items.flatMap Item.bytes

def telnetData (items : List Item) : List (Option UInt8) := items.flatMap Item.data?

/-- The decoder leaves the data of a stream in the buffer, each byte of it written for its own bytes in
the stream. -/
def KeepsData (items : List Item) (behind : Option UInt8) (rest : Cells UInt8) : Prop :=
  (∃ t, telnetDecoder .reset ((telnetBytes items).map some ++ behind :: rest)
      (telnetBytes items).length = .ok (some t) ∧
    Terminated t.pucBuffer ((telnetData items).filterMap id)) ∧
  kept .reset (telnetBytes items) = telnetData items

/-- The bytes that the decoder takes for commands only.  It takes IAC WONT and IAC DONT for whole
commands, and goes on behind the first byte of a subnegotiation that it does not know. -/
inductive Commands : List UInt8 → Prop
  | nil : Commands []
  | command (c : UInt8) (s : List UInt8) (hc : c ∉ [tnIAC, tnSB, tnWILL, tnDO]) (hs : Commands s) :
    Commands (tnIAC :: c :: s)
  | negotiate (c option : UInt8) (s : List UInt8) (hc : c ∈ [tnWILL, tnDO]) (hs : Commands s) :
    Commands (tnIAC :: c :: option :: s)
  | option (c : UInt8) (s : List UInt8) (hc : c ≠ tnTERMTYPE) (hs : Commands s) :
    Commands (tnIAC :: tnSB :: c :: s)
  | terminalType (c : UInt8) (s : List UInt8) (hc : c ≠ tnSEND) (hs : Commands s) :
    Commands (tnIAC :: tnSB :: tnTERMTYPE :: c :: s)
  | send (c : UInt8) (s : List UInt8) (hc : c ≠ tnIAC) (hs : Commands s) :
    Commands (tnIAC :: tnSB :: tnTERMTYPE :: tnSEND :: c :: s)
  | request (c : UInt8) (s : List UInt8) (hs : Commands s) :
    Commands (tnIAC :: tnSB :: tnTERMTYPE :: tnSEND :: tnIAC :: c :: s)

/-- The decoder takes the item for what it is. -/
def Item.Known : Item → Prop
  | .negotiate verb _ => verb = .will ∨ verb = .do
  | .subnegotiate option parameters => Commands (Item.subnegotiate option parameters).bytes
  | _ => True

/-- The option of the item is taken for the beginning of a command. -/
def Item.Dangling : Item → Prop
  | .negotiate verb option => (verb = .wont ∨ verb = .dont) ∧ option = tnIAC
  | _ => False

/-- All items are known to the decoder; the last one may be dangling. -/
def Clean : List Item → Prop
  | [] => True
  | item :: items => (item.Known ∧ Clean items) ∨ (item.Dangling ∧ items = [])

/-! ### What the decoder takes for commands -/

/-- Nothing is written for these bytes, and behind them the decoder is out of a command. -/
def Silent (state : IACState) (s : List UInt8) : Prop :=
  (∀ k ∈ kept state s, k = none) ∧ stateAfter state s = .reset

theorem silent_nil : Silent state [] ↔ state = .reset :=
  ⟨fun h => h.2, fun h => ⟨fun _ hk => absurd hk List.not_mem_nil, h⟩⟩

theorem silent_cons {c : UInt8} :
    Silent state (c :: s) ↔ (decode state c).kept = none ∧ Silent (decode state c).state s := by
  constructor
  · rintro ⟨h, hstate⟩
    exact ⟨h _ List.mem_cons_self, fun k hk => h k (List.mem_cons_of_mem _ hk), hstate⟩
  · rintro ⟨hkept, h, hstate⟩
    refine ⟨fun k hk => ?_, hstate⟩
    rcases List.mem_cons.mp hk with rfl | hk
    · exact hkept
    · exact h k hk

/-- What comes behind an IAC. -/
theorem decode_opcode {c : UInt8} (hc : c ∉ [tnIAC, tnSB, tnWILL, tnDO]) :
    decode .opcode c = ⟨.reset, none, []⟩ := by
  simp only [List.mem_cons, List.not_mem_nil, or_false, not_or] at hc
  obtain ⟨hiac, hsb, hwill, hdo⟩ := hc
  unfold decode
  dsimp only
  rw [if_neg hwill, if_neg hdo, if_neg hsb, if_neg hiac]

/-- What comes behind WILL or DO. -/
theorem decode_option {c : UInt8} (hstate : state = .will ∨ state = .do) :
    (decode state c).kept = none ∧ (decode state c).state = .reset := by
  rcases hstate with rfl | rfl
  · exact ⟨rfl, rfl⟩
  · unfold decode
    dsimp only
    split <;> exact ⟨rfl, rfl⟩

theorem decode_iac (c : UInt8) :
    (decode .iac c).kept = none ∧ (decode .iac c).state = .reset := by
  unfold decode
  dsimp only
  split <;> exact ⟨rfl, rfl⟩

theorem silent_iac : Silent .reset (tnIAC :: s) ↔ Silent .opcode s := by
  rw [silent_cons]
  exact ⟨fun h => h.2, fun h => ⟨rfl, h⟩⟩

theorem silent_negotiate {c option : UInt8} (hc : c ∈ [tnWILL, tnDO]) :
    Silent .opcode (c :: option :: s) ↔ Silent .reset s := by
  have hopcode : (decode .opcode c).kept = none ∧
      ((decode .opcode c).state = .will ∨ (decode .opcode c).state = .do) := by
    rcases List.mem_cons.mp hc with rfl | hc
    · exact ⟨rfl, Or.inl rfl⟩
    · obtain rfl := List.mem_singleton.mp hc
      exact ⟨rfl, Or.inr rfl⟩
  obtain ⟨hkept, hstate⟩ := decode_option (c := option) hopcode.2
  rw [silent_cons, silent_cons, hkept, hstate]
  exact ⟨fun h => h.2.2, fun h => ⟨hopcode.1, rfl, h⟩⟩

/-- In a subnegotiation the decoder waits for one byte, and at another one it is out of it. -/
theorem silent_sub {state' : IACState} {c d : UInt8}
    (hdecode : decode state c = if c = d then ⟨state', none, []⟩ else ⟨.reset, none, []⟩) :
    Silent state (c :: s) ↔ if c = d then Silent state' s else Silent .reset s := by
  rw [silent_cons, hdecode]
  split
  · exact ⟨fun h => h.2, fun h => ⟨rfl, h⟩⟩
  · exact ⟨fun h => h.2, fun h => ⟨rfl, h⟩⟩

theorem Commands.silent {s : List UInt8} (h : Commands s) : Silent .reset s := by
  induction h with
  | nil => exact silent_nil.mpr rfl
  | command c s hc _ ih =>
    rw [silent_iac, silent_cons, decode_opcode hc]
    exact ⟨rfl, ih⟩
  | negotiate c option s hc _ ih => exact silent_iac.mpr ((silent_negotiate hc).mpr ih)
  | option c s hc _ ih =>
    rw [silent_iac, silent_cons]
    refine ⟨rfl, (silent_sub (d := tnTERMTYPE) rfl).mpr ?_⟩
    rw [if_neg hc]
    exact ih
  | terminalType c s hc _ ih =>
    rw [silent_iac, silent_cons]
    refine ⟨rfl, (silent_sub (d := tnTERMTYPE) rfl).mpr ((silent_sub (d := tnSEND) rfl).mpr ?_)⟩
    rw [if_neg hc]
    exact ih
  | send c s hc _ ih =>
    rw [silent_iac, silent_cons]
    refine ⟨rfl, (silent_sub (d := tnTERMTYPE) rfl).mpr ((silent_sub (d := tnSEND) rfl).mpr
      ((silent_sub (d := tnIAC) rfl).mpr ?_))⟩
    rw [if_neg hc]
    exact ih
  | request c s _ ih =>
    rw [silent_iac, silent_cons]
    refine ⟨rfl, (silent_sub (d := tnTERMTYPE) rfl).mpr ((silent_sub (d := tnSEND) rfl).mpr
      ((silent_sub (d := tnIAC) rfl).mpr (silent_cons.mpr ?_)))⟩
    rw [(decode_iac c).2]
    exact ⟨(decode_iac c).1, ih⟩

theorem not_silent_of_ne {c : UInt8} (hc : c ≠ tnIAC) : ¬Silent .reset (c :: s) := by
  rw [silent_cons]
  rintro ⟨hkept, -⟩
  unfold decode at hkept
  dsimp only at hkept
  rw [if_neg hc] at hkept
  cases hkept

theorem silent_sub_nil (hstate : state ≠ .reset) : ¬Silent state [] :=
  fun h => hstate (silent_nil.mp h)

/-- The decoder leaves a subnegotiation at the first byte that it does not wait for. -/
theorem commands_sub (hrest : ∀ t : List UInt8, t.length < s.length → Silent .reset t → Commands t)
    (h : Silent .sb s) : Commands (tnIAC :: tnSB :: s) := by
  rcases s with _ | ⟨c, s⟩
  · exact absurd h (silent_sub_nil nofun)
  rw [silent_sub (d := tnTERMTYPE) rfl] at h
  by_cases hoption : c = tnTERMTYPE
  · rw [if_pos hoption] at h
    subst hoption
    rcases s with _ | ⟨c, s⟩
    · exact absurd h (silent_sub_nil nofun)
    rw [silent_sub (d := tnSEND) rfl] at h
    by_cases hsend : c = tnSEND
    · rw [if_pos hsend] at h
      subst hsend
      rcases s with _ | ⟨c, s⟩
      · exact absurd h (silent_sub_nil nofun)
      rw [silent_sub (d := tnIAC) rfl] at h
      by_cases hiac : c = tnIAC
      · rw [if_pos hiac] at h
        subst hiac
        rcases s with _ | ⟨c, s⟩
        · exact absurd h (silent_sub_nil nofun)
        rw [silent_cons, (decode_iac c).2] at h
        exact .request c s (hrest s (by simp only [List.length_cons]; omega) h.2)
      · rw [if_neg hiac] at h
        exact .send c s hiac (hrest s (by simp only [List.length_cons]; omega) h)
    · rw [if_neg hsend] at h
      exact .terminalType c s hsend (hrest s (by simp only [List.length_cons]; omega) h)
  · rw [if_neg hoption] at h
    exact .option c s hoption (hrest s (Nat.lt_succ_self _) h)

theorem commands_of_silent (s : List UInt8) (h : Silent .reset s) : Commands s := by
  induction hn : s.length using Nat.strong_induction_on generalizing s with
  | h n ih =>
    have hrest : ∀ t : List UInt8, t.length < s.length → Silent .reset t → Commands t :=
      fun t ht hsilent => ih t.length (hn ▸ ht) t hsilent rfl
    rcases s with _ | ⟨c, s⟩
    · exact .nil
    obtain rfl : c = tnIAC := by
      by_contra hc
      exact not_silent_of_ne hc h
    rw [silent_iac] at h
    rcases s with _ | ⟨c, s⟩
    · exact absurd h (silent_sub_nil nofun)
    by_cases hother : c ∉ [tnIAC, tnSB, tnWILL, tnDO]
    · rw [silent_cons, decode_opcode hother] at h
      exact .command c s hother (hrest s (by simp only [List.length_cons]; omega) h.2)
    by_cases hverb : c ∈ [tnWILL, tnDO]
    · rcases s with _ | ⟨option, s⟩
      · rcases List.mem_cons.mp hverb with rfl | hverb
        · exact absurd (silent_cons.mp h).2 (silent_sub_nil nofun)
        · obtain rfl := List.mem_singleton.mp hverb
          exact absurd (silent_cons.mp h).2 (silent_sub_nil nofun)
      · exact .negotiate c option s hverb
          (hrest s (by simp only [List.length_cons]; omega) ((silent_negotiate hverb).mp h))
    by_cases hiac : c = tnIAC
    · subst hiac
      exact absurd (silent_cons.mp h).1 nofun
    obtain rfl : c = tnSB := by
      rcases List.mem_cons.mp (not_not.mp hother) with hc | hmem
      · exact absurd hc hiac
      · exact (List.mem_cons.mp hmem).resolve_right hverb
    refine commands_sub (fun t ht hsilent => hrest t ?_ hsilent) (silent_cons.mp h).2
    simp only [List.length_cons]
    omega

/-- Behind SE the decoder is out of a command. -/
theorem decode_se (hkept : (decode state tnSE).kept = none) : (decode state tnSE).state = .reset := by
  revert hkept
  cases state <;> decide

theorem kept_eq_none_iff : kept state s = s.map (fun _ => none) ↔ ∀ k ∈ kept state s, k = none := by
  rw [List.map_const', List.eq_replicate_iff]
  exact ⟨fun h => h.2, fun h => ⟨length_kept state s, h⟩⟩

/-- Nothing is written for a subnegotiation just when its bytes are commands to the decoder. -/
theorem subnegotiate_iff (option : UInt8) (parameters : List UInt8) :
    kept .reset (Item.subnegotiate option parameters).bytes =
        (Item.subnegotiate option parameters).data? ↔
      Commands (Item.subnegotiate option parameters).bytes := by
  have hsplit : (Item.subnegotiate option parameters).bytes =
      (tnIAC :: tnSB :: option :: (quote parameters ++ [tnIAC])) ++ [tnSE] := by
    show tnIAC :: tnSB :: option :: (quote parameters ++ [tnIAC, tnSE]) = _
    rw [List.cons_append, List.cons_append, List.cons_append, List.append_assoc]
    rfl
  have hdata : (Item.subnegotiate option parameters).data? =
      (Item.subnegotiate option parameters).bytes.map fun _ => none := rfl
  rw [hdata, kept_eq_none_iff]
  constructor
  · intro h
    refine commands_of_silent _ ⟨h, ?_⟩
    rw [hsplit] at h ⊢
    rw [kept_append] at h
    rw [stateAfter_append]
    exact decode_se (h _ (List.mem_append_right _ List.mem_cons_self))
  · exact fun h => h.silent.1

/-! ### Items -/

theorem Item.length_data? (item : Item) : item.data?.length = item.bytes.length := by
  cases item with
  | data c hc => rfl
  | quoted => rfl
  | _ => exact List.length_map _

/-- A known item gives its data, and leaves the decoder where it was. -/
theorem Item.Known.kept_eq {item : Item} (h : item.Known) :
    kept .reset item.bytes = item.data? ∧ stateAfter .reset item.bytes = .reset := by
  cases item with
  | data c hc =>
    have hdecode : decode .reset c = ⟨.reset, some c, []⟩ := if_neg hc
    unfold Item.bytes Item.data? kept stateAfter
    dsimp only
    rw [hdecode]
    exact ⟨rfl, rfl⟩
  | quoted => exact ⟨rfl, rfl⟩
  | command c hc =>
    have hsilent : Silent .reset [tnIAC, c] := by
      refine (Commands.command c [] ?_ .nil).silent
      intro hmem
      apply hc
      simp only [List.mem_cons, List.not_mem_nil, or_false] at hmem ⊢
      tauto
    exact ⟨kept_eq_none_iff.mpr hsilent.1, hsilent.2⟩
  | negotiate verb option =>
    have hsilent : Silent .reset [tnIAC, verb.code, option] := by
      refine (Commands.negotiate verb.code option [] ?_ .nil).silent
      rcases h with rfl | rfl <;> decide
    exact ⟨kept_eq_none_iff.mpr hsilent.1, hsilent.2⟩
  | subnegotiate option parameters =>
    exact ⟨(subnegotiate_iff option parameters).mpr h, h.silent.2⟩

/-- An item that gives its data is known, or it is dangling. -/
theorem Item.known_or_dangling {item : Item} (h : kept .reset item.bytes = item.data?) :
    item.Known ∨ item.Dangling := by
  cases item with
  | negotiate verb option =>
    by_cases hknown : verb = .will ∨ verb = .do
    · exact Or.inl hknown
    have hverb : verb = .wont ∨ verb = .dont := by
      cases verb with
      | will => exact absurd (Or.inl rfl) hknown
      | «do» => exact absurd (Or.inr rfl) hknown
      | wont => exact Or.inl rfl
      | dont => exact Or.inr rfl
    refine Or.inr ⟨hverb, ?_⟩
    by_contra hoption
    -- the option of a WONT or DONT is written as data
    have hdecode : decode .reset option = ⟨.reset, some option, []⟩ := if_neg hoption
    have hkept : kept .reset (Item.negotiate verb option).bytes = [none, none, some option] := by
      rcases hverb with rfl | rfl
      · exact congrArg (fun d : Decoded => [none, none, d.kept]) hdecode
      · exact congrArg (fun d : Decoded => [none, none, d.kept]) hdecode
    rw [hkept] at h
    exact absurd (List.cons.inj (List.cons.inj (List.cons.inj h).2).2).1 nofun
  | subnegotiate option parameters => exact Or.inl ((subnegotiate_iff option parameters).mp h)
  | _ => exact Or.inl trivial

/-- The option of a dangling item is the first byte of a command to the decoder. -/
theorem Item.Dangling.kept_eq {item : Item} (h : item.Dangling) :
    kept .reset item.bytes = item.data? ∧ stateAfter .reset item.bytes = .opcode := by
  cases item with
  | negotiate verb option =>
    obtain ⟨hverb, rfl⟩ := h
    rcases hverb with rfl | rfl <;> exact ⟨rfl, rfl⟩
  | _ => exact absurd h id

/-- Behind an IAC no item is kept as it should be. -/
theorem Item.not_kept_opcode (item : Item) (s : List UInt8) (t : List (Option UInt8)) :
    kept .opcode (item.bytes ++ s) ≠ item.data? ++ t := by
  intro h
  cases item with
  | data c hc =>
    have hfirst : (decode .opcode c).kept = some c := (List.cons.inj h).1
    unfold decode at hfirst
    dsimp only at hfirst
    rw [if_neg hc] at hfirst
    split at hfirst
    · cases hfirst
    · split at hfirst
      · cases hfirst
      · split at hfirst <;> cases hfirst
  | _ => exact absurd (List.cons.inj h).1 nofun

theorem kept_telnetBytes_iff (items : List Item) :
    kept .reset (telnetBytes items) = telnetData items ↔ Clean items := by
  induction items with
  | nil => exact iff_of_true rfl trivial
  | cons item items ih =>
    have hbytes : telnetBytes (item :: items) = item.bytes ++ telnetBytes items := rfl
    have hdata : telnetData (item :: items) = item.data? ++ telnetData items := rfl
    rw [hbytes, hdata, kept_append]
    constructor
    · intro h
      have hlength : (kept .reset item.bytes).length = item.data?.length := by
        rw [length_kept, item.length_data?]
      obtain ⟨hitem, hitems⟩ := List.append_inj h hlength
      rcases item.known_or_dangling hitem with hknown | hdangling
      · rw [hknown.kept_eq.2] at hitems
        exact Or.inl ⟨hknown, ih.mp hitems⟩
      · refine Or.inr ⟨hdangling, ?_⟩
        rw [hdangling.kept_eq.2] at hitems
        cases items with
        | nil => rfl
        | cons next items => exact absurd hitems (next.not_kept_opcode _ _)
    · rintro (⟨hknown, hclean⟩ | ⟨hdangling, rfl⟩)
      · rw [hknown.kept_eq.1, hknown.kept_eq.2, ih.mpr hclean]
      · rw [hdangling.kept_eq.1]
        rfl

/-- **The decoder keeps the data of a stream** just when all its items are known to it, or the last one
is a WONT or DONT for the option 255. -/
theorem keepsData_iff (items : List Item) (behind : Option UInt8) (rest : Cells UInt8) :
    KeepsData items behind rest ↔ Clean items := by
  rw [← kept_telnetBytes_iff]
  unfold KeepsData
  constructor
  · exact fun h => h.2
  · intro h
    obtain ⟨t, hrun, hbuffer, -⟩ := telnetDecoder_eq .reset (telnetBytes items) behind rest
    rw [h] at hbuffer
    exact ⟨⟨t, hrun, hbuffer⟩, h⟩

/-- IAC WONT ECHO: the option is kept. -/
theorem not_keepsData_wont : ¬KeepsData [.negotiate .wont 1] (some 0) [] := by
  rintro ⟨⟨t, hrun, rest, hbuffer⟩, -⟩
  have hdecoded : (telnetDecoder .reset [some 255, some 252, some 1, some 0] 3).map
      (fun t => t.map fun t => t.pucBuffer.take 2) = .ok (some [some 1, some 0]) := by
    decide +kernel
  have hrun' : telnetDecoder .reset [some 255, some 252, some 1, some 0] 3 = .ok (some t) := hrun
  rw [hrun'] at hdecoded
  have htwo : t.pucBuffer.take 2 = [some 1, some 0] := Option.some.inj (Except.ok.inj hdecoded)
  rw [hbuffer] at htwo
  have hfirst : some (0 : UInt8) = some 1 := (List.cons.inj htwo).1
  exact absurd hfirst (by decide)

end SocketImpl

end CatraLibraries
