/-
# Decoding what was encoded

`encodeURL` writes for each byte a text that the decoder reads back as that byte, except that
a blank may come back as `+`.  The decoder then turns every `+` of its result into a blank,
whether the encoder has put it there for a blank or it is a `%2B` that has just been decoded.

So the two functions restore exactly the strings without a `+`, in both spellings of the
blank and for both kinds of output.
-/
import CatraLibraries.WebTools.UrlCoding

namespace CatraLibraries

open Memory CString Substring Percent

namespace WebUtility

/-! ### One character -/

/-- The text of one byte. -/
def encodedText (bAsciiInCaseOfSpace : Bool) (c : UInt8) : List UInt8 :=
  if isValid c then [c]
  else if c = 32 then (if bAsciiInCaseOfSpace then [37, 50, 48] else [43])
  else percent :: printX 2 c.toNat

/-- The byte that the percent decoding makes of that text. -/
def percentDecoded (bAsciiInCaseOfSpace : Bool) (c : UInt8) : UInt8 :=
  if c = 32 ∧ bAsciiInCaseOfSpace = false then 43 else c

/-- What the last step of the decoder makes of a byte. -/
def plusToSpace (c : UInt8) : UInt8 := if c = 43 then 32 else c

/-- The text that `sprintf` and the repair leave, for each of the 256 bytes. -/
theorem cstr_encodedChar (c : UInt8) (bAscii : Bool) :
    (encodedChar c bAscii >>= fun r => cstr r.1) = .ok (encodedText bAscii c) := by
  revert bAscii
  refine forall_uint8 (P := fun c => ∀ b, (encodedChar c b >>= fun r => cstr r.1)
    = .ok (encodedText b c)) ?_ ?_ ?_ ?_ c
  all_goals decide +kernel

theorem encodedChar_holds (c : UInt8) (bAscii : Bool) :
    ∃ m n, encodedChar c bAscii = .ok (m, n) ∧ Holds m (encodedText bAscii c) := by
  obtain ⟨⟨m, n⟩, hm, hcstr⟩ := bind_eq_ok.mp (cstr_encodedChar c bAscii)
  exact ⟨m, n, hm, holds_of_cstr_eq hcstr⟩

/-- The two digits of a byte are read as that byte. -/
theorem readsBack (c : UInt8) :
    ∃ x y, printX 2 c.toNat = [x, y] ∧ isxdigit x ∧ isxdigit y ∧
      UInt8.ofNat (scanLX [x, y]) = c := by
  have hall : ∀ c : UInt8, (printX 2 c.toNat).length = 2 ∧
      (printX 2 c.toNat).all isxdigit = true ∧ UInt8.ofNat (scanLX (printX 2 c.toNat)) = c :=
    forall_uint8 (by decide +kernel) (by decide +kernel) (by decide +kernel) (by decide +kernel)
  obtain ⟨hlen, hdigits, hback⟩ := hall c
  obtain ⟨x, y, hxy⟩ := List.length_eq_two.mp hlen
  rw [hxy, List.all_eq_true] at hdigits
  rw [hxy] at hback
  exact ⟨x, y, hxy, hdigits x (by simp), hdigits y (by simp), hback⟩

theorem isValid_ne {c : UInt8} (h : isValid c) : c ≠ percent ∧ c ≠ 32 ∧ c ≠ 43 := by
  refine ⟨?_, ?_, ?_⟩ <;>
  · rintro rfl
    exact absurd h (by decide)

/-- **The text of a byte is decoded to it**, or to `+` where it spells a blank so. -/
theorem decode_encodedText {c : UInt8} (hc : c ≠ 0) (bAscii : Bool) (t : List UInt8) :
    decode (encodedText bAscii c ++ t) = (decode t).map (percentDecoded bAscii c :: ·) := by
  unfold encodedText percentDecoded
  by_cases hvalid : isValid c
  · have hne := isValid_ne hvalid
    rw [if_pos hvalid, if_neg fun h => hne.2.1 h.1]
    exact decode_cons hne.1 t
  rw [if_neg hvalid]
  by_cases hspace : c = 32
  · subst hspace
    cases bAscii with
    | true => exact decode_percent (by decide) (by decide) t
    | false => exact decode_cons (by decide) t
  · obtain ⟨x, y, hprint, hx, hy, hback⟩ := readsBack c
    rw [if_neg hspace, if_neg fun h => hspace h.1, hprint]
    show decode (percent :: x :: y :: t) = _
    rw [decode_percent hx hy, hback, visible_eq_self (by simpa using hc.symm)]
    rfl

theorem decode_encoded {s : List UInt8} (hs : 0 ∉ s) (bAscii : Bool) :
    decode (s.flatMap (encodedText bAscii)) = some (s.map (percentDecoded bAscii)) := by
  refine decode_flatMap fun c hc t => decode_encodedText ?_ bAscii t
  rintro rfl
  exact hs hc

theorem plusToSpace_percentDecoded (bAscii : Bool) (c : UInt8) :
    plusToSpace (percentDecoded bAscii c) = plusToSpace c := by
  unfold plusToSpace percentDecoded
  split_ifs with h₁ h₂ h₃ <;> simp_all

/-- A string that the last step leaves as it is has no `+`. -/
theorem map_plusToSpace_eq_self {s : List UInt8} : s.map plusToSpace = s ↔ 43 ∉ s := by
  constructor
  · intro h hmem
    have := List.map_eq_map_iff.mp (h.trans (List.map_id s).symm) 43 hmem
    exact absurd this (by decide)
  · intro h
    refine (List.map_congr_left fun c hc => ?_).trans (List.map_id s)
    refine if_neg ?_
    rintro rfl
    exact h hc

/-- Replacing the pattern `+` is a map. -/
theorem replaceAll_plus (s : List UInt8) : replaceAll [43] [32] s = s.map plusToSpace := by
  induction s with
  | nil =>
    have := replaceAll_eq (List.cons_ne_nil (43 : UInt8) []) [32] []
    simpa [findSub] using this
  | cons c s ih =>
    by_cases hc : c = 43
    · subst hc
      have : replaceAll [43] [32] ([43] ++ s) = [32] ++ replaceAll [43] [32] s :=
        replaceAll_of_prefix (List.cons_ne_nil (43 : UInt8) []) s
      simpa [plusToSpace, ih] using this
    · have hno : ¬ ([(43 : UInt8)] ≠ [] ∧ [(43 : UInt8)] <+: c :: s) := by
        rintro ⟨-, hpre⟩
        exact hc (List.cons_prefix_cons.mp hpre).1.symm
      rw [replaceAll, dif_neg hno]
      show c :: replaceAll [43] [32] s = _
      rw [ih, List.map_cons, plusToSpace, if_neg hc]

/-! ### The encoder -/

/-- A buffer that its class has left in order, initialized or not. -/
def Usable (b : Buffer) : Prop := Buffer.Idle b ∨ ∃ s, Buffer.Contents b s

/-- A call that fills a buffer succeeds with the string `t`, or gets no memory. -/
def Fills (r : Except Fault (UrlError × Buffer)) (t : List UInt8) : Prop :=
  r = .error .badAlloc ∨ ∃ b, r = .ok (.errNoError, b) ∧ Buffer.Simulates b (some t)

/-- How many characters the check of the limit counts for a character. -/
def checkedLength (c : UInt8) : Nat := if isValid c then 1 else if c = 32 then 1 else 3

/-- The characters that the encoder takes behind `n` characters of its output. -/
def encodedPart (limit : Nat) (bAsciiInCaseOfSpace : Bool) : Nat → List UInt8 → List UInt8
  | _, [] => []
  | n, c :: s =>
    if limit ≠ noTruncation ∧ n + checkedLength c > limit then []
    else c :: encodedPart limit bAsciiInCaseOfSpace
      (n + (encodedText bAsciiInCaseOfSpace c).length) s

/-- Without a limit they are all of them. -/
theorem encodedPart_noTruncation (bAscii : Bool) (n : Nat) (s : List UInt8) :
    encodedPart noTruncation bAscii n s = s := by
  induction s generalizing n with
  | nil => rfl
  | cons c s ih => rw [encodedPart, if_neg fun h => h.1 rfl, ih]

theorem encodedChar_room {c : UInt8} {bAscii : Bool} {m : Cells UInt8} {n : Nat}
    (h : encodedChar c bAscii = .ok (m, n)) : n = checkedLength c := by
  unfold encodedChar at h
  unfold checkedLength
  split_ifs at h ⊢
  · exact (Prod.mk.inj (Except.ok.inj h)).2.symm
  · exact (Prod.mk.inj (Except.ok.inj h)).2.symm
  · exact (Prod.mk.inj (Except.ok.inj h)).2.symm
  · obtain ⟨m₁, -, h⟩ := bind_eq_ok.mp h
    obtain ⟨m₂, -, h⟩ := bind_eq_ok.mp h
    exact (Prod.mk.inj (Except.ok.inj h)).2.symm

theorem checkedLength_le (c : UInt8) : checkedLength c ≤ 3 := by
  unfold checkedLength
  split_ifs
  · exact Nat.le_add_left 1 2
  · exact Nat.le_add_left 1 2
  · exact Nat.le_refl 3

/-- **The loop of the encoder** appends the texts of the characters that it takes. -/
theorem encodeLoop_fills {pURL : Cells UInt8} {s : List UInt8} (hURL : Holds pURL s)
    (limit : Nat) (bAscii : Bool) (n i : Nat) (hi : i + n = s.length) {b : Buffer}
    {acc : List UInt8} (hb : Buffer.Simulates b (some acc)) :
    Fills (encodeLoop pURL limit bAscii n i b)
      (acc ++ (encodedPart limit bAscii acc.length (s.drop i)).flatMap (encodedText bAscii)) := by
  induction n generalizing i b acc with
  | zero =>
    rw [List.drop_of_length_le (by omega)]
    exact Or.inr ⟨b, rfl, by simpa [encodedPart] using hb⟩
  | succ n ih =>
    have hlt : i < s.length := by omega
    have hload : load pURL i = .ok s[i] := by
      obtain ⟨-, rest, rfl⟩ := hURL
      simp [load, List.getElem?_append_left, hlt]
    obtain ⟨m, room, hchar, hm⟩ := encodedChar_holds s[i] bAscii
    obtain rfl := encodedChar_room hchar
    have hlength := hb.1.length_eq_chars
    -- the sum is no more than the length of a block and three
    have hword : (b.length + checkedLength s[i]) % 2 ^ 64 = acc.length + checkedLength s[i] := by
      have hle := checkedLength_le s[i]
      have hlt := (hb.1.holds hb.2).length_lt
      have hbound := hb.1.length_eq.trans_le hb.1.bounded
      rw [hlength]
      exact Nat.mod_eq_of_lt (by unfold maxAllocation at hbound; omega)
    obtain ⟨hc, h0⟩ := hb
    rw [encodeLoop, hload, ok_bind, hchar, ok_bind]
    dsimp only
    rw [hword, ← List.getElem_cons_drop hlt, encodedPart]
    by_cases hlimit : limit ≠ noTruncation ∧ acc.length + checkedLength s[i] > limit
    · rw [if_pos hlimit, if_pos hlimit]
      exact Or.inr ⟨b, rfl, by simpa using ⟨hc, h0⟩⟩
    rw [if_neg hlimit, if_neg hlimit]
    rcases Buffer.append_simulates hc h0 hm with hbad | ⟨b', hb', hsim⟩
    · exact Or.inl (by rw [hbad, error_bind])
    · have hrec := ih (i + 1) (by omega) hsim
      rw [List.append_assoc, List.length_append, ← List.flatMap_cons] at hrec
      rw [hb', ok_bind]
      exact hrec

/-- **What `encodeURL` computes.** -/
theorem encodeURL_fills (s : CStr) (limit : Nat) (bAscii : Bool) {b : Buffer} (hb : Usable b) :
    encodeURL (some s.cells) (some b) limit bAscii = .error .badAlloc ∨
      ∃ b', encodeURL (some s.cells) (some b) limit bAscii = .ok (.errNoError, some b') ∧
        Buffer.Simulates b' (some ((encodedPart limit bAscii 0 s.bytes).flatMap
          (encodedText bAscii))) := by
  unfold encodeURL
  dsimp only
  rcases Buffer.setBuffer_clears hb with hbad | ⟨b₁, hb₁, hsim⟩
  · exact Or.inl (by rw [hbad, error_bind])
  · have hloop := encodeLoop_fills s.holds limit bAscii s.bytes.length 0 (by omega) hsim
    rw [List.drop_zero, List.nil_append, List.length_nil] at hloop
    rw [hb₁, ok_bind]
    dsimp only
    rw [if_neg (by simp), s.holds.strlen_eq, ok_bind]
    rcases hloop with hbad | ⟨b', hb', hsim'⟩
    · exact Or.inl (by rw [hbad, error_bind])
    · exact Or.inr ⟨b', by rw [hb', ok_bind]; rfl, hsim'⟩

/-! ### The output of the decoder -/

namespace Decoded

/-- The output holds the string `t`. -/
def Represents (out : Decoded) (t : List UInt8) : Prop :=
  match out with
  | .buffer b => Buffer.Simulates b (some t)
  | .array m len => Holds m t ∧ t.length < len ∧ len ≤ m.length ∧ len < 2 ^ 64

/-- An output that a caller may pass: a buffer in order, or an array of the length that is
passed with it. -/
def Accepted : Decoded → Prop
  | .buffer b => Usable b
  | .array m len => len ≤ m.length ∧ len < 2 ^ 64

/-- Whether `n` bytes and their NUL fit into the output. -/
def Fits (out : Decoded) (n : Nat) : Prop :=
  match out with
  | .buffer _ => True
  | .array _ len => n < len

/-- A step succeeds and leaves the string `t` in the output, which has the room it had; or it
gets no memory. -/
def Leaves (out : Decoded) (r : Except Fault (UrlError × Decoded)) (t : List UInt8) : Prop :=
  r = .error .badAlloc ∨
    ∃ out', r = .ok (.errNoError, out') ∧ out'.Represents t ∧ ∀ n, out'.Fits n ↔ out.Fits n

theorem Represents.unique {out : Decoded} {t u : List UInt8} (ht : out.Represents t)
    (hu : out.Represents u) : t = u := by
  cases out with
  | buffer b => exact (ht.1.holds ht.2).unique (hu.1.holds hu.2)
  | array m len => exact ht.1.unique hu.1

theorem Fits.mono {out : Decoded} {k n : Nat} (h : out.Fits n) (hk : k ≤ n) : out.Fits k := by
  cases out with
  | buffer b => trivial
  | array m len => exact Nat.lt_of_le_of_lt hk h

variable {out : Decoded} {t u : List UInt8} {src : Cells UInt8}

/-- An array is cleared. -/
theorem array_clear {m : Cells UInt8} {len : Nat} (hlen : len ≤ m.length) (hword : len < 2 ^ 64)
    (hpos : 0 < len) : ∃ m', clear (.array m len) = .ok (.errNoError, .array m' len) ∧
      m'.length = m.length ∧ (array m' len).Represents [] := by
  have hwrite : writeAt m 0 (List.replicate len (some 0))
      = .ok (List.replicate len (some 0) ++ m.drop len) := by
    unfold writeAt
    rw [if_pos (by simpa using hlen)]
    simp
  have hlength : (List.replicate len (some 0) ++ m.drop len).length = m.length := by
    rw [List.length_append, List.length_replicate, List.length_drop]
    omega
  refine ⟨List.replicate len (some 0) ++ m.drop len, ?_, hlength, ?_⟩
  · rw [clear, hwrite, ok_bind]
    rfl
  · rw [← hlength] at hlen
    obtain ⟨k, rfl⟩ := Nat.exists_eq_succ_of_ne_zero (Nat.pos_iff_ne_zero.mp hpos)
    exact ⟨⟨by simp, List.replicate k (some 0) ++ m.drop (k + 1), rfl⟩, hpos, hlen, hword⟩

theorem clear_leaves (h : out.Accepted) (hfits : out.Fits 0) : out.Leaves out.clear [] := by
  cases out with
  | buffer b =>
    rcases Buffer.setBuffer_clears h with hbad | ⟨b', hb', hsim⟩
    · exact Or.inl (by rw [clear, hbad, error_bind])
    · exact Or.inr ⟨.buffer b', by rw [clear, hb', ok_bind]; rfl, hsim, fun _ => Iff.rfl⟩
  | array m len =>
    obtain ⟨hlen, hword⟩ := h
    obtain ⟨m', hm', -, hrep⟩ := array_clear hlen hword hfits
    exact Or.inr ⟨_, hm', hrep, fun _ => Iff.rfl⟩

theorem roomLeft_eq {len n : Nat} (hn : n ≤ len) (hlen : len < 2 ^ 64) :
    roomLeft len n = len - n := by
  unfold roomLeft
  omega

/-- Bytes are appended in an array with room for them. -/
theorem array_appendBytes {m : Cells UInt8} {len n : Nat} (h : (array m len).Represents t)
    (hsrc : Holds src u) (hn : n ≤ u.length) (hroom : t.length + n < len) :
    ∃ m', appendBytes src n (.array m len) = .ok (.errNoError, .array m' len) ∧
      m'.length = m.length ∧ (array m' len).Represents (t ++ u.take n) := by
  have hlen : (u.take n).length = n := by rw [List.length_take, Nat.min_eq_left hn]
  obtain ⟨hm, hlt, hle, hword⟩ := h
  obtain ⟨m₁, hcat, hlen₁, hm₁⟩ := hm.strncat_eq hsrc hn (by omega)
  obtain ⟨m₂, hst, hlen₂, hm₂⟩ := hm₁.store_nul (i := t.length + n)
    (by rw [List.length_append, hlen])
  rw [List.take_of_length_le (by rw [List.length_append, hlen])] at hm₂
  refine ⟨m₂, ?_, hlen₂.trans hlen₁, hm₂, ?_, ?_, hword⟩
  · rw [appendBytes, hm.strlen_eq, ok_bind,
      if_neg (by rw [roomLeft_eq (by omega) hword]; omega), hcat, ok_bind, hst, ok_bind]
    rfl
  · rw [List.length_append, hlen]
    exact hroom
  · omega

theorem appendBytes_leaves (h : out.Represents t) (hsrc : Holds src u) {n : Nat}
    (hn : n ≤ u.length) (hfits : out.Fits (t.length + n)) :
    out.Leaves (out.appendBytes src n) (t ++ u.take n) := by
  have hlen : (u.take n).length = n := by rw [List.length_take, Nat.min_eq_left hn]
  cases out with
  | buffer b =>
    obtain ⟨hc, h0⟩ := h
    have hlt := hsrc.length_lt
    have happ := Buffer.append_contents (p := u.take n) hc h0
      (by rw [hlen, hsrc.take_eq hn]) (by omega)
    rw [hlen] at happ
    rcases happ with hbad | ⟨b', hb', hc'⟩
    · exact Or.inl (by rw [appendBytes, hbad, error_bind])
    · refine Or.inr ⟨.buffer b', by rw [appendBytes, hb', ok_bind]; rfl, ⟨hc', ?_⟩, fun _ => Iff.rfl⟩
      intro hmem
      rcases List.mem_append.mp hmem with hmem | hmem
      · exact h0 hmem
      · exact hsrc.nulFree (List.mem_of_mem_take hmem)
  | array m len =>
    obtain ⟨m', hm', -, hrep⟩ := array_appendBytes h hsrc hn hfits
    exact Or.inr ⟨_, hm', hrep, fun _ => Iff.rfl⟩

/-- A string is appended in an array with room for it. -/
theorem array_appendString {m : Cells UInt8} {len : Nat} (h : (array m len).Represents t)
    (hsrc : Holds src u) (hroom : t.length + u.length < len) :
    ∃ m', appendString src (.array m len) = .ok (.errNoError, .array m' len) ∧
      m'.length = m.length ∧ (array m' len).Represents (t ++ u) := by
  obtain ⟨hm, hlt, hle, hword⟩ := h
  obtain ⟨m₁, hcat, hlen₁, hm₁⟩ := hm.strcat_eq hsrc (by omega)
  refine ⟨m₁, ?_, hlen₁, hm₁, ?_, ?_, hword⟩
  · rw [appendString, hsrc.strlen_eq, ok_bind, hm.strlen_eq, ok_bind,
      if_neg (by rw [roomLeft_eq (by omega) hword]; omega), hcat, ok_bind]
    rfl
  · rw [List.length_append]
    exact hroom
  · omega

theorem appendString_leaves (h : out.Represents t) (hsrc : Holds src u)
    (hfits : out.Fits (t.length + u.length)) :
    out.Leaves (out.appendString src) (t ++ u) := by
  cases out with
  | buffer b =>
    obtain ⟨hc, h0⟩ := h
    rcases Buffer.append_simulates hc h0 hsrc with hbad | ⟨b', hb', hsim⟩
    · exact Or.inl (by rw [appendString, hbad, error_bind])
    · exact Or.inr ⟨.buffer b', by rw [appendString, hb', ok_bind]; rfl, hsim, fun _ => Iff.rfl⟩
  | array m len =>
    obtain ⟨m', hm', -, hrep⟩ := array_appendString h hsrc hfits
    exact Or.inr ⟨_, hm', hrep, fun _ => Iff.rfl⟩

/-- The loop of the array works through the `+` of `u`; its turns are counted by them. -/
theorem replacePlusLoop_eq (fuel : Nat) {m : Cells UInt8} (hm : Holds m (t ++ u))
    (hfuel : u.count 43 < fuel) :
    ∃ m', replacePlusLoop fuel m t.length = .ok m' ∧ m'.length = m.length ∧
      Holds m' (t ++ u.map plusToSpace) := by
  induction fuel generalizing m t u with
  | zero => omega
  | succ fuel ih =>
    have hrest : Holds (m.drop t.length) u := by
      simpa using hm.drop (i := t.length) (by simp)
    rw [replacePlusLoop]
    by_cases hmem : 43 ∈ u
    · obtain ⟨p, q, rfl, hp, hchr⟩ := hrest.strchr_split (by decide) hmem
      obtain ⟨m₁, hst, hlen₁, hm₁⟩ := hm.store_byte (i := t.length + p.length) (c := 32)
        (by simp) (by decide)
      have hset : (t ++ (p ++ 43 :: q)).set (t.length + p.length) 32
          = (t ++ p) ++ 32 :: q := by
        rw [List.set_append_right _ _ (by omega), List.set_append_right _ _ (by omega)]
        simp
      rw [hset] at hm₁
      obtain ⟨m', hrun, hlen', hm'⟩ := ih hm₁
        (by simp at hfuel ⊢; omega)
      rw [List.length_append] at hrun
      refine ⟨m', ?_, hlen'.trans hlen₁, ?_⟩
      · rw [hchr, ok_bind]
        dsimp only
        rw [hst, ok_bind]
        exact hrun
      · rw [List.map_append, map_plusToSpace_eq_self.mpr hp]
        simpa [plusToSpace] using hm'
    · refine ⟨m, ?_, rfl, ?_⟩
      · rw [hrest.strchr_none (by decide) hmem, ok_bind]
        rfl
      · rwa [map_plusToSpace_eq_self.mpr hmem]

/-- Every `+` of an array becomes a blank. -/
theorem array_replacePlus {m : Cells UInt8} {len : Nat} (h : (array m len).Represents t) :
    ∃ m', replacePlus (.array m len) = .ok (.errNoError, .array m' len) ∧
      m'.length = m.length ∧ (array m' len).Represents (t.map plusToSpace) := by
  obtain ⟨hm, hlt, hle, hword⟩ := h
  have hcount : t.count 43 ≤ t.length := List.count_le_length
  obtain ⟨m', hrun, hlen', hm'⟩ := replacePlusLoop_eq (t := []) (u := t) (m.length + 1)
    (by simpa using hm) (by omega)
  refine ⟨m', ?_, hlen', hm', ?_, ?_, hword⟩
  · rw [List.length_nil] at hrun
    rw [replacePlus, hrun, ok_bind]
    rfl
  · rw [List.length_map]
    exact hlt
  · omega

/-- **The last step of the decoder**, in both kinds of output. -/
theorem replacePlus_leaves (h : out.Represents t) :
    out.Leaves out.replacePlus (t.map plusToSpace) := by
  cases out with
  | buffer b =>
    obtain ⟨hc, h0⟩ := h
    have hsub := Buffer.substitute_simulates hc h0 ⟨[43], by decide⟩ ⟨[32], by decide⟩
      (by simp) (fun i hi => ⟨by simp, fun hne => absurd rfl hne⟩) (by simp)
    rw [replaceAll_plus] at hsub
    rcases hsub with hbad | ⟨b', hb', hsim⟩
    · refine Or.inl ?_
      rw [replacePlus]
      exact (congrArg (· >>= _) hbad).trans (error_bind _ _)
    · refine Or.inr ⟨.buffer b', ?_, hsim, fun _ => Iff.rfl⟩
      rw [replacePlus]
      exact (congrArg (· >>= _) hb').trans (ok_bind _ _)
  | array m len =>
    obtain ⟨m', hm', -, hrep⟩ := array_replacePlus h
    exact Or.inr ⟨_, hm', hrep, fun _ => Iff.rfl⟩

end Decoded

/-! ### The decoder -/

theorem literal_holds (s : List UInt8) : Holds (literal s) (visible s) :=
  Terminated.holds_visible ⟨[], rfl⟩

theorem decodedChar_eq {m : Cells UInt8} {x y : UInt8} {s : List UInt8}
    (hm : Holds m (percent :: x :: y :: s)) (hx : isxdigit x) (hy : isxdigit y) :
    decodedChar m = .ok (some (UInt8.ofNat (scanLX [x, y]))) := by
  have hlen := hm.strlen_eq
  obtain ⟨-, rest, rfl⟩ := hm
  rw [decodedChar, hlen, ok_bind, if_pos (by simp)]
  show (load _ 1 >>= _) = _
  have hload₁ : load ((percent :: x :: y :: s).map some ++ some 0 :: rest) 1 = .ok x := rfl
  have hload₂ : load ((percent :: x :: y :: s).map some ++ some 0 :: rest) 2 = .ok y := rfl
  rw [hload₁, ok_bind, if_pos hx, hload₂, ok_bind, if_pos hy]
  rfl

/-- **The loop of the decoder** appends what is left, decoded. -/
theorem decodeLoop_leaves {pURL : Cells UInt8} {s : List UInt8} (hURL : Holds pURL s)
    (fuel i : Nat) (hi : i ≤ s.length) (hfuel : s.length - i < fuel) {out : Decoded}
    {t v : List UInt8} (hout : out.Represents t) (hv : decode (s.drop i) = some v)
    (hfits : out.Fits (t.length + v.length)) :
    out.Leaves (decodeLoop pURL fuel i out) (t ++ v) := by
  induction fuel generalizing i out t v with
  | zero => omega
  | succ fuel ih =>
    have hrem := hURL.drop hi
    unfold decodeLoop
    dsimp only
    by_cases hmem : percent ∈ s.drop i
    · obtain ⟨p, q, hcut, hp, hchr⟩ := hrem.strchr_split (by decide) hmem
      rw [hcut, decode_append hp] at hv
      obtain ⟨w, hw, rfl⟩ := Option.map_eq_some_iff.mp hv
      obtain ⟨x, y, q', v', rfl, hx, hy, hv', rfl⟩ := eq_of_decode_percent hw
      generalize hc : UInt8.ofNat (scanLX [x, y]) = c at *
      simp only [List.length_append] at hfits
      have hlen := congrArg List.length hcut
      simp only [List.length_drop, List.length_append, List.length_cons] at hlen
      -- the bytes before the `%`
      have htake : (s.drop i).take p.length = p := by rw [hcut, List.take_left]
      have hbytes := Decoded.appendBytes_leaves hout hrem (n := p.length)
        (by rw [List.length_drop]; omega) (hfits.mono (by omega))
      rw [hchr, ok_bind, htake] at *
      dsimp only
      rcases hbytes with hbad | ⟨out₁, hout₁, hrep₁, hfit₁⟩
      · exact Or.inl (by rw [hbad, error_bind])
      rw [hout₁, ok_bind]
      dsimp only
      rw [if_neg (by simp)]
      -- the character
      have hchar : Holds ((pURL.drop i).drop p.length) (percent :: x :: y :: q') := by
        have := hrem.drop (i := p.length) (by rw [List.length_drop]; omega)
        rwa [hcut, List.drop_left] at this
      rw [decodedChar_eq hchar hx hy, ok_bind, hc]
      dsimp only
      have hstring := Decoded.appendString_leaves hrep₁ (literal_holds [c])
        ((hfit₁ _).mpr (hfits.mono (by rw [List.length_append]; omega)))
      rcases hstring with hbad | ⟨out₂, hout₂, hrep₂, hfit₂⟩
      · exact Or.inl (by rw [hbad, error_bind])
      rw [hout₂, ok_bind]
      dsimp only
      rw [if_neg (by simp)]
      -- the rest
      have hdrop : s.drop (i + p.length + 3) = q' := by
        rw [show i + p.length + 3 = i + (p.length + 3) by omega, ← List.drop_drop, hcut,
          List.drop_append]
        simp
      have hrec := ih (i + p.length + 3) (by omega) (by omega) hrep₂ (by rw [hdrop, hv'])
        ((hfit₂ _).mpr ((hfit₁ _).mpr (hfits.mono (by simp only [List.length_append]; omega))))
      rcases hrec with hbad | ⟨out₃, hout₃, hrep₃, hfit₃⟩
      · exact Or.inl hbad
      · refine Or.inr ⟨out₃, hout₃, by simpa using hrep₃, fun n => ?_⟩
        rw [hfit₃, hfit₂, hfit₁]
    · rw [decode_of_notMem hmem] at hv
      obtain rfl := Option.some.inj hv
      rw [hrem.strchr_none (by decide) hmem, ok_bind]
      exact Decoded.appendString_leaves hout hrem hfits

/-- **What `decodeURL` computes**: the string its argument stands for, with blanks for `+`. -/
theorem decodeURL_eq {pURL : Cells UInt8} {s v : List UInt8} (hURL : Holds pURL s)
    (hv : decode s = some v) {out : Decoded} (hout : out.Accepted) (hfits : out.Fits v.length) :
    decodeURL (some pURL) (some out) = .error .badAlloc ∨
      ∃ out', decodeURL (some pURL) (some out) = .ok (.errNoError, some out') ∧
        out'.Represents (v.map plusToSpace) := by
  unfold decodeURL
  dsimp only
  rcases Decoded.clear_leaves hout (hfits.mono (Nat.zero_le _)) with
    hbad | ⟨out₁, hout₁, hrep₁, hfit₁⟩
  · exact Or.inl (by rw [hbad, error_bind])
  have hlt := hURL.length_lt
  have hloop := decodeLoop_leaves hURL (pURL.length + 1) 0 (Nat.zero_le _) (by omega) hrep₁
    (by rwa [List.drop_zero]) ((hfit₁ _).mpr (by simpa using hfits))
  rw [hout₁, ok_bind]
  dsimp only
  rw [if_neg (by simp)]
  rcases hloop with hbad | ⟨out₂, hout₂, hrep₂, -⟩
  · exact Or.inl (by rw [hbad, error_bind])
  rw [hout₂, ok_bind]
  dsimp only
  rw [if_neg (by simp)]
  rcases Decoded.replacePlus_leaves hrep₂ with hbad | ⟨out₃, hout₃, hrep₃, -⟩
  · exact Or.inl (by rw [hbad, error_bind])
  · exact Or.inr ⟨out₃, by rw [hout₃, ok_bind]; rfl, hrep₃⟩

/-- **Decoding restores exactly the strings without a `+`.**  For every string, both spellings
of a blank and both kinds of output the two calls succeed, unless they get no memory, and the
result is the string if and only if no `+` occurs in it. -/
theorem decodeURL_encodeURL (s : CStr) (bAsciiInCaseOfSpace : Bool) {b : Buffer} (hb : Usable b)
    {out : Decoded} (hout : out.Accepted) (hfits : out.Fits s.bytes.length) :
    encodeURL (some s.cells) (some b) noTruncation bAsciiInCaseOfSpace = .error .badAlloc ∨
      ∃ b', encodeURL (some s.cells) (some b) noTruncation bAsciiInCaseOfSpace
          = .ok (.errNoError, some b') ∧
        (decodeURL (some b'.pBuffer) (some out) = .error .badAlloc ∨
          ∃ out', decodeURL (some b'.pBuffer) (some out) = .ok (.errNoError, some out') ∧
            (out'.Represents s.bytes ↔ 43 ∉ s.bytes)) := by
  have hencode := encodeURL_fills s noTruncation bAsciiInCaseOfSpace hb
  rw [encodedPart_noTruncation] at hencode
  rcases hencode with hbad | ⟨b', hb', hc, h0⟩
  · exact Or.inl hbad
  refine Or.inr ⟨b', hb', ?_⟩
  have hv := decode_encoded s.nulFree bAsciiInCaseOfSpace
  rcases decodeURL_eq (hc.holds h0) hv hout (by simpa using hfits) with hbad | ⟨out', hout', hrep⟩
  · exact Or.inl hbad
  refine Or.inr ⟨out', hout', ?_⟩
  rw [List.map_map, show plusToSpace ∘ percentDecoded bAsciiInCaseOfSpace = plusToSpace from
    funext (plusToSpace_percentDecoded _)] at hrep
  rw [← map_plusToSpace_eq_self]
  constructor
  · intro hs
    exact hrep.unique hs
  · intro hs
    rwa [hs] at hrep

/-- A string with a blank, a `%` and a byte from 128 on, decoded into an array of its size. -/
theorem decodeURL_encodeURL_text :
    ∃ b', encodeURL (some (literal [97, 32, 37, 199])) (some Buffer.built) noTruncation false
        = .ok (.errNoError, some b') ∧
      ∃ out', decodeURL (some b'.pBuffer) (some (.array (List.replicate 5 none) 5))
          = .ok (.errNoError, some out') ∧ out'.Represents [97, 32, 37, 199] := by
  have hout : (Decoded.array (List.replicate 5 none) 5).Accepted := ⟨by simp, by norm_num⟩
  have h := decodeURL_encodeURL ⟨[97, 32, 37, 199], by decide⟩ false (b := Buffer.built)
    (Or.inl Buffer.built_idle) hout (show 4 < 5 by decide)
  obtain hbad | ⟨b', hb', h⟩ := h
  · exact absurd hbad (by rintro ⟨⟩)
  · refine ⟨b', hb', ?_⟩
    obtain hbad | ⟨out', hout', hiff⟩ := h
    · obtain rfl := Option.some.inj (Prod.mk.inj (Except.ok.inj hb')).2
      exact absurd hbad (by rintro ⟨⟩)
    · exact ⟨out', hout', hiff.mpr (by decide)⟩

/-- A `+` is encoded as `%2B`, decoded to `+` again and then taken for a blank. -/
theorem decodeURL_encodeURL_plus :
    ∃ b' out', encodeURL (some (literal [43])) (some Buffer.built) noTruncation true
        = .ok (.errNoError, some b') ∧
      decodeURL (some b'.pBuffer) (some (.buffer Buffer.built)) = .ok (.errNoError, some out') ∧
      out'.Represents [32] ∧ ¬ out'.Represents [43] := by
  have hrep : ∀ b : Buffer, b.bsBufferStatus = .initialized ∧ b.bMemoryAllocated = true ∧
      0 < b.lBufferBlockNumberOnOverflow ∧ b.lBufferBlockNumber ≠ 0 ∧
      b.pBuffer.length = b.capacity ∧ b.capacity ≤ maxAllocation ∧ b.ullCharsNumber = 1 ∧
      b.pBuffer = [some 32, some 0] ++ b.pBuffer.drop 2 →
      (Decoded.buffer b).Represents [32] := by
    rintro b ⟨h₁, h₂, h₃, h₄, h₅, h₆, h₇, h₈⟩
    exact ⟨⟨h₁, h₂, h₃, h₄, h₅, h₆, h₇, b.pBuffer.drop 2, h₈⟩, by decide⟩
  refine ⟨_, _, rfl, rfl, hrep _ (by decide), fun h => ?_⟩
  exact absurd ((hrep _ (by decide)).unique h) (by decide)

end WebUtility

end CatraLibraries
