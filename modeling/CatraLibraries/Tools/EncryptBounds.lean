/-
# What the decryption touches

`decrypt` reads its argument two characters at a time and writes one for each turn.  Of a
string with an odd number of characters the last turn takes the terminator for the second
character of a pair, and writes one character more than the half of the length that is checked
against the size of the buffer; the NUL then goes behind that character.

The loop is followed in both directions.  Where it has what it needs it ends, and where it has
ended, its index is past the string by one at the most, and half of it is the place of the NUL.
-/
import CatraLibraries.Tools.Encrypt

namespace CatraLibraries

open Memory CString

namespace Encrypt

/-- `decrypt (stringToBeDecrypted)`, for a `string`.  The inner result is what the function
throws. -/
def decryptString (stringToBeDecrypted : List UInt8) :
    Except Fault (Except String (List UInt8)) := do
  let c_str : Cells UInt8 := stringToBeDecrypted.map some ++ [some 0]
  let lDecryptedBufferLength ← getDecryptedBufferLength c_str
  let pDecryptedBuffer : Cells UInt8 := List.replicate (lDecryptedBufferLength + 1) none
  let pDecryptedBuffer ← store pDecryptedBuffer 0 0
  let (result, pDecryptedBuffer) ← decrypt c_str pDecryptedBuffer (lDecryptedBufferLength + 1)
  if result ≠ 0 then return .error "Encrypt::encrypt failed"
  else return .ok (← cstr pDecryptedBuffer)

/-! ### The loop -/

theorem lt_of_addInt {index step i : Nat} (h : addInt index step = .ok i) :
    i = index + step ∧ i < 2 ^ 31 := by
  unfold addInt at h
  split at h
  · next hlt =>
    obtain rfl := Except.ok.inj h
    exact ⟨rfl, hlt⟩
  · exact absurd h (by simp)

/-- **The loop ends** on a string that an `int` can index, in a buffer with a cell for each of
its turns. -/
theorem decryptLoop_ends {m : Cells UInt8} {s : List UInt8} (hm : Terminated m s)
    (hint : s.length + 1 < 2 ^ 31) (fuel j : Nat) (dst : Cells UInt8)
    (hroom : (s.length + 1) / 2 ≤ dst.length) (hfuel : s.length ≤ 2 * (j + fuel)) :
    ∃ r, decryptLoop m s.length (fuel + 1) (2 * j) j dst = .ok r := by
  induction fuel generalizing j dst with
  | zero =>
    have hend : ¬ 2 * j < s.length := by omega
    exact ⟨(j, dst), by rw [decryptLoop, if_neg hend]⟩
  | succ fuel ih =>
    by_cases hmore : 2 * j < s.length
    · obtain ⟨flag, hflag⟩ := hm.exists_load (Nat.le_of_lt hmore)
      obtain ⟨c, hc⟩ := hm.exists_load (show 2 * j + 1 ≤ s.length from hmore)
      have hplace : j < dst.length := by omega
      obtain ⟨r, hr⟩ := ih (j + 1) (dst.set j (some (unpair flag c)))
        (by rwa [List.length_set]) (by omega)
      refine ⟨r, ?_⟩
      rw [decryptLoop, if_pos hmore, hflag, ok_bind, hc, ok_bind, store_ok _ hplace, ok_bind,
        addInt_ok (by omega), ok_bind, addInt_ok (by omega), ok_bind]
      exact hr
    · exact ⟨(j, dst), by rw [decryptLoop, if_neg hmore]⟩

/-- **Where the loop has ended.**  The index of the string did not overflow, and that of the
buffer is the number of turns. -/
theorem eq_of_decryptLoop {m : Cells UInt8} {n : Nat} (fuel j : Nat) {dst dst' : Cells UInt8}
    {j' : Nat} (h : decryptLoop m n fuel (2 * j) j dst = .ok (j', dst'))
    (hint : 2 * j < 2 ^ 31) (hj : 2 * j ≤ n + 1) :
    n ≤ 2 * j' ∧ 2 * j' ≤ n + 1 ∧ 2 * j' < 2 ^ 31 ∧ dst'.length = dst.length := by
  induction fuel generalizing j dst with
  | zero => exact absurd h (by simp [decryptLoop])
  | succ fuel ih =>
    rw [decryptLoop] at h
    by_cases hmore : 2 * j < n
    · rw [if_pos hmore] at h
      obtain ⟨flag, -, h⟩ := bind_eq_ok.mp h
      obtain ⟨c, -, h⟩ := bind_eq_ok.mp h
      obtain ⟨written, hwritten, h⟩ := bind_eq_ok.mp h
      obtain ⟨i₁, hi, h⟩ := bind_eq_ok.mp h
      obtain ⟨j₁, hj₁, h⟩ := bind_eq_ok.mp h
      obtain ⟨rfl, hlt⟩ := lt_of_addInt hi
      obtain ⟨rfl, -⟩ := lt_of_addInt hj₁
      have hrest := ih (j + 1) h hlt (by omega)
      rwa [(length_of_store hwritten).2] at hrest
    · rw [if_neg hmore] at h
      obtain ⟨rfl, rfl⟩ := Prod.mk.inj (Except.ok.inj h)
      exact ⟨Nat.le_of_not_lt hmore, hj, hint, rfl⟩

/-! ### The two functions -/

theorem getDecryptedBufferLength_eq {m : Cells UInt8} {s : List UInt8} (hm : Holds m s) :
    getDecryptedBufferLength m = .ok (s.length / 2) := by
  rw [getDecryptedBufferLength, hm.strlen_eq, ok_bind]
  rfl

/-- With room for half of the string, the call is its loop and the store of the NUL. -/
theorem decrypt_eq {m : Cells UInt8} {s : List UInt8} (hm : Holds m s) {dst : Cells UInt8}
    {uDecryptedBufferLength : Nat} (hroom : s.length / 2 < uDecryptedBufferLength) :
    decrypt m dst uDecryptedBufferLength
      = (decryptLoop m s.length (s.length + 1) 0 0 dst >>= fun r =>
          store r.2 r.1 0 >>= fun dst => .ok (0, dst)) := by
  rw [decrypt, hm.strlen_eq, ok_bind, getDecryptedBufferLength_eq hm, ok_bind,
    if_neg (Nat.not_le_of_lt hroom)]
  rfl

/-- **When the call stays inside its two blocks**, given room for half of the string. -/
theorem decrypt_ok_iff {m : Cells UInt8} {s : List UInt8} (hm : Holds m s) {dst : Cells UInt8}
    {uDecryptedBufferLength : Nat} (hroom : s.length / 2 < uDecryptedBufferLength)
    (hdst : dst.length = uDecryptedBufferLength) :
    (∃ r, decrypt m dst uDecryptedBufferLength = .ok r) ↔
      (s.length + 1) / 2 < uDecryptedBufferLength ∧ s.length + 1 < 2 ^ 31 := by
  rw [decrypt_eq hm hroom]
  constructor
  · rintro ⟨r, hr⟩
    obtain ⟨⟨j, dst'⟩, hloop, hr⟩ := bind_eq_ok.mp hr
    obtain ⟨dst'', hstore, -⟩ := bind_eq_ok.mp hr
    obtain ⟨hpast, hone, hint, hlen⟩ :=
      eq_of_decryptLoop (s.length + 1) 0 hloop (by decide) (Nat.zero_le _)
    have hplace : j < dst'.length := (length_of_store hstore).1
    omega
  · rintro ⟨hplace, hint⟩
    obtain ⟨⟨j, dst'⟩, hloop⟩ := decryptLoop_ends (s := s) hm.split hint s.length 0 dst
      (by omega) (by omega)
    obtain ⟨hpast, hone, -, hlen⟩ :=
      eq_of_decryptLoop (s.length + 1) 0 hloop (by decide) (Nat.zero_le _)
    have hnul : j < dst'.length := by omega
    exact ⟨(0, dst'.set j (some 0)), by rw [hloop, ok_bind, store_ok _ hnul, ok_bind]⟩

/-- The call touches nothing outside its two blocks, the string with its NUL and a buffer of the
length that is passed. -/
def InBounds (s : CStr) (pDecryptedBuffer : Cells UInt8) : Prop :=
  ∃ r, decrypt s.cells pDecryptedBuffer pDecryptedBuffer.length = .ok r

/-! ### The overload for a string -/

/-- The first `j` cells of a block have been written. -/
def Written (m : Cells UInt8) (j : Nat) : Prop :=
  ∃ (w : List UInt8) (x : Cells UInt8), w.length = j ∧ m = w.map some ++ x

theorem Written.store {m m' : Cells UInt8} {j : Nat} {c : UInt8} (h : Written m j)
    (hm' : store m j c = .ok m') :
    ∃ (w : List UInt8) (x : Cells UInt8), w.length = j ∧ m' = (w ++ [c]).map some ++ x := by
  obtain ⟨w, x, rfl, rfl⟩ := h
  have hlt := (length_of_store hm').1
  obtain ⟨a, x, rfl⟩ := List.exists_cons_of_length_pos (l := x) (by
    rw [List.length_append, List.length_map] at hlt
    omega)
  rw [store_at c rfl] at hm'
  exact ⟨w, x, rfl, (Except.ok.inj hm').symm⟩

/-- The loop writes its buffer from the left, without a gap. -/
theorem Written.decryptLoop {m : Cells UInt8} {n : Nat} (fuel i j : Nat) {dst dst' : Cells UInt8}
    {j' : Nat} (hdst : Written dst j) (h : decryptLoop m n fuel i j dst = .ok (j', dst')) :
    Written dst' j' := by
  induction fuel generalizing i j dst with
  | zero => exact absurd h (by simp [Encrypt.decryptLoop])
  | succ fuel ih =>
    rw [Encrypt.decryptLoop] at h
    by_cases hmore : i < n
    · rw [if_pos hmore] at h
      obtain ⟨flag, -, h⟩ := bind_eq_ok.mp h
      obtain ⟨c, -, h⟩ := bind_eq_ok.mp h
      obtain ⟨written, hwritten, h⟩ := bind_eq_ok.mp h
      obtain ⟨i₁, -, h⟩ := bind_eq_ok.mp h
      obtain ⟨j₁, hj₁, h⟩ := bind_eq_ok.mp h
      obtain ⟨rfl, -⟩ := lt_of_addInt hj₁
      obtain ⟨w, x, hw, rfl⟩ := hdst.store hwritten
      exact ih i₁ (j + 1) ⟨w ++ [unpair flag c], x, by simp [hw], rfl⟩ h
    · rw [if_neg hmore] at h
      obtain ⟨rfl, rfl⟩ := Prod.mk.inj (Except.ok.inj h)
      exact hdst

/-- After the call the buffer can be read as a string. -/
theorem cstr_decrypt {m : Cells UInt8} {s : List UInt8} (hm : Holds m s) {dst dst' : Cells UInt8}
    {uDecryptedBufferLength : Nat} (hroom : s.length / 2 < uDecryptedBufferLength)
    {result : Int} (h : decrypt m dst uDecryptedBufferLength = .ok (result, dst')) :
    result = 0 ∧ ∃ t, cstr dst' = .ok t := by
  rw [decrypt_eq hm hroom] at h
  obtain ⟨⟨j, written⟩, hloop, h⟩ := bind_eq_ok.mp h
  obtain ⟨dst'', hstore, h⟩ := bind_eq_ok.mp h
  obtain ⟨rfl, rfl⟩ := Prod.mk.inj (Except.ok.inj h)
  have hwritten : Written written j :=
    Written.decryptLoop (s.length + 1) 0 0 ⟨[], dst, rfl, rfl⟩ hloop
  obtain ⟨w, x, -, rfl⟩ := hwritten.store hstore
  have hterm : Terminated ((w ++ [0]).map some ++ x) w := ⟨x, by simp⟩
  exact ⟨rfl, visible w, hterm.holds_visible.cstr_eq⟩

/-- The call of the overload, written as its four parts. -/
theorem decryptString_eq {text s : List UInt8} (hm : Holds (text.map some ++ [some 0]) s) :
    decryptString text
      = (store (List.replicate (s.length / 2 + 1) none) 0 0 >>= fun buffer =>
          decrypt (text.map some ++ [some 0]) buffer (s.length / 2 + 1) >>= fun r =>
            if r.1 ≠ 0 then .ok (.error "Encrypt::encrypt failed")
            else cstr r.2 >>= fun t => .ok (.ok t)) := by
  rw [decryptString, getDecryptedBufferLength_eq hm, ok_bind]
  rfl

/-- The overload for a `string` passes a buffer of the least length that is accepted. -/
theorem decryptString_ok_iff {text s : List UInt8} (hm : Holds (text.map some ++ [some 0]) s) :
    (∃ r, decryptString text = .ok r) ↔ s.length % 2 = 0 ∧ s.length + 1 < 2 ^ 31 := by
  obtain ⟨buffer, hfirst⟩ : ∃ buffer,
      store (List.replicate (s.length / 2 + 1) none) 0 (0 : UInt8) = .ok buffer :=
    ⟨_, store_ok _ (by rw [List.length_replicate]; exact Nat.succ_pos _)⟩
  have hlen : buffer.length = s.length / 2 + 1 := by
    rw [(length_of_store hfirst).2, List.length_replicate]
  have hparity : (s.length + 1) / 2 < s.length / 2 + 1 ↔ s.length % 2 = 0 := by omega
  rw [← hparity, ← decrypt_ok_iff hm (Nat.lt_succ_self _) hlen, decryptString_eq hm, hfirst,
    ok_bind]
  constructor
  · rintro ⟨r, hr⟩
    obtain ⟨called, hcalled, -⟩ := bind_eq_ok.mp hr
    exact ⟨called, hcalled⟩
  · rintro ⟨⟨result, dst'⟩, hcalled⟩
    obtain ⟨rfl, t, ht⟩ := cstr_decrypt hm (Nat.lt_succ_self _) hcalled
    exact ⟨.ok t, by rw [hcalled, ok_bind, if_neg (by simp), ht, ok_bind]⟩

/-! ### The bounds -/

/-- **What stays in bounds.**  A call whose buffer is accepted touches nothing outside its blocks
exactly where the string has an even number of characters, or the buffer a cell more than the
least that is accepted, and the `int` that indexes the string does not overflow.  The overload for
a `string` has no cell to spare, and is in bounds exactly for an even number. -/
theorem inBounds_iff (s : CStr) {pDecryptedBuffer : Cells UInt8}
    (hroom : s.bytes.length / 2 < pDecryptedBuffer.length) (text : List UInt8) :
    (InBounds s pDecryptedBuffer ↔
      (s.bytes.length % 2 = 0 ∨ s.bytes.length / 2 + 1 < pDecryptedBuffer.length) ∧
        s.bytes.length + 1 < 2 ^ 31) ∧
    ((∃ r, decryptString text = .ok r) ↔
      (visible text).length % 2 = 0 ∧ (visible text).length + 1 < 2 ^ 31) := by
  refine ⟨?_, decryptString_ok_iff (Terminated.holds_visible ⟨[], rfl⟩)⟩
  have hplace : (s.bytes.length + 1) / 2 < pDecryptedBuffer.length ↔
      s.bytes.length % 2 = 0 ∨ s.bytes.length / 2 + 1 < pDecryptedBuffer.length := by omega
  rw [← hplace]
  exact decrypt_ok_iff s.holds hroom rfl

/-- A pair and a half. -/
theorem inBounds_pairAndHalf :
    InBounds ⟨[49, 100, 49], by decide⟩ (List.replicate 3 none) ∧
      ∃ r, decryptString [49, 100] = .ok r := by
  have hroom : (⟨[49, 100, 49], by decide⟩ : CStr).bytes.length / 2
      < (List.replicate 3 none : Cells UInt8).length := by decide
  obtain ⟨hbuffer, hstring⟩ := inBounds_iff ⟨[49, 100, 49], by decide⟩ hroom [49, 100]
  exact ⟨hbuffer.mpr ⟨Or.inr (by decide), by decide⟩, hstring.mpr ⟨by decide, by decide⟩⟩

/-- A single character is accepted with a buffer of one byte, and the NUL is written behind it;
the overload for a `string` passes such a buffer. -/
theorem not_inBounds_single :
    decrypt (CStr.cells ⟨[49], by decide⟩) (List.replicate 1 none) 1 = .error .outOfBounds ∧
      ¬ InBounds ⟨[49], by decide⟩ (List.replicate 1 none) ∧
      decryptString [49] = .error .outOfBounds := by
  have hcall : decrypt (CStr.cells ⟨[49], by decide⟩) (List.replicate 1 none) 1
      = .error .outOfBounds := by rfl
  refine ⟨hcall, ?_, by rfl⟩
  rintro ⟨r, hr⟩
  exact absurd (hcall.symm.trans hr) (by simp)

end Encrypt

end CatraLibraries
