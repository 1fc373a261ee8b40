/-
# Encoding with a limit

With a limit `encodeURL` stops before the first character whose text has no room any more, so that
its result is the encoding of a prefix of the URL.  But the check before a blank counts one
character also where the blank is written as `%20`; a blank that comes one or two characters before
the limit makes the result longer than it.
-/
import CatraLibraries.WebTools.UrlRoundTrip

namespace CatraLibraries

open Memory CString Percent

namespace WebUtility

/-- The encoding of a text. -/
def encoded (bAsciiInCaseOfSpace : Bool) (s : List UInt8) : List UInt8 :=
  s.flatMap (encodedText bAsciiInCaseOfSpace)

/-- What a limit asks of the result: it is not longer, and is the encoding of a prefix. -/
def Truncates (s : List UInt8) (limit : Nat) (bAsciiInCaseOfSpace : Bool) (result : List UInt8) :
    Prop :=
  result.length ≤ limit ∧ ∃ p, p <+: s ∧ result = encoded bAsciiInCaseOfSpace p

/-- No blank that is written as `%20` comes one or two characters before the limit. -/
def BlanksFit (s : List UInt8) (limit : Nat) (bAsciiInCaseOfSpace : Bool) : Prop :=
  bAsciiInCaseOfSpace = true → ∀ p, p ++ [32] <+: s →
    (encoded true p).length + 1 ≠ limit ∧ (encoded true p).length + 2 ≠ limit

variable {bAscii : Bool} {c : UInt8} {s : List UInt8} {limit n : Nat}

/-! ### One character -/

theorem length_printX_two (c : UInt8) : (printX 2 c.toNat).length = 2 := by
  obtain ⟨x, y, hxy, -⟩ := readsBack c
  rw [hxy]
  rfl

/-- The check counts the text of the character, unless it is a `%20`. -/
theorem length_encodedText (bAscii : Bool) (c : UInt8) :
    (encodedText bAscii c).length
      = if c = 32 ∧ bAscii = true then 3 else checkedLength c := by
  unfold encodedText checkedLength
  by_cases hvalid : isValid c
  · have hne := isValid_ne hvalid
    rw [if_pos hvalid, if_pos hvalid, if_neg fun h => hne.2.1 h.1]
    rfl
  rw [if_neg hvalid, if_neg hvalid]
  by_cases hblank : c = 32
  · rw [if_pos hblank, if_pos hblank]
    cases bAscii <;> simp [hblank]
  · rw [if_neg hblank, if_neg hblank, if_neg fun h => hblank h.1, List.length_cons,
      length_printX_two]

theorem checkedLength_le_encodedText (bAscii : Bool) (c : UInt8) :
    checkedLength c ≤ (encodedText bAscii c).length := by
  have hle := checkedLength_le c
  rw [length_encodedText]
  split
  · exact hle
  · exact Nat.le_refl _

theorem encoded_cons (bAscii : Bool) (c : UInt8) (s : List UInt8) :
    encoded bAscii (c :: s) = encodedText bAscii c ++ encoded bAscii s := List.flatMap_cons

/-! ### The characters that are taken -/

theorem encodedPart_isPrefix (limit : Nat) (bAscii : Bool) (n : Nat) (s : List UInt8) :
    encodedPart limit bAscii n s <+: s := by
  induction s generalizing n with
  | nil => exact List.prefix_rfl
  | cons c s ih =>
    unfold encodedPart
    split
    · exact List.nil_prefix
    · exact List.cons_prefix_cons.mpr ⟨rfl, ih _⟩

/-- With a blank written as `+`, the limit is kept. -/
theorem length_encodedPart_le (hlimit : limit ≠ noTruncation) (hn : n ≤ limit) :
    n + (encoded false (encodedPart limit false n s)).length ≤ limit := by
  induction s generalizing n with
  | nil => exact hn
  | cons c s ih =>
    have htext : (encodedText false c).length = checkedLength c := by
      rw [length_encodedText, if_neg fun h => Bool.false_ne_true h.2]
    unfold encodedPart
    split
    · exact hn
    · next hgo =>
      have hroom : ¬ n + checkedLength c > limit := fun h => hgo ⟨hlimit, h⟩
      have h := ih (n := n + (encodedText false c).length) (by omega)
      rwa [encoded_cons, List.length_append, ← Nat.add_assoc]

/-- The blanks of a text by its first character. -/
theorem blanks_cons (n limit : Nat) (c : UInt8) (s : List UInt8) :
    (∀ p, p ++ [32] <+: c :: s →
        n + (encoded true p).length + 1 ≠ limit ∧ n + (encoded true p).length + 2 ≠ limit) ↔
      (c = 32 → n + 1 ≠ limit ∧ n + 2 ≠ limit) ∧ ∀ p, p ++ [32] <+: s →
        n + (encodedText true c).length + (encoded true p).length + 1 ≠ limit ∧
        n + (encodedText true c).length + (encoded true p).length + 2 ≠ limit := by
  constructor
  · intro h
    refine ⟨fun hc => ?_, fun p hp => ?_⟩
    · simpa [encoded] using h [] (by simp [hc])
    · have := h (c :: p) (List.cons_prefix_cons.mpr ⟨rfl, hp⟩)
      rwa [encoded_cons, List.length_append, ← Nat.add_assoc] at this
  · rintro ⟨hhead, htail⟩ p hp
    cases p with
    | nil =>
      obtain ⟨rfl, -⟩ := List.cons_prefix_cons.mp hp
      simpa [encoded] using hhead rfl
    | cons d p =>
      obtain ⟨rfl, htake⟩ := List.cons_prefix_cons.mp hp
      have := htail p htake
      rwa [encoded_cons, List.length_append, ← Nat.add_assoc]

/-- **The length of the result.**  Behind `n` characters of output that keep the limit, the
characters that are taken keep it just when no blank comes one or two characters before the
limit. -/
theorem length_encodedPart_le_iff (hlimit : limit ≠ noTruncation) (hn : n ≤ limit) :
    n + (encoded true (encodedPart limit true n s)).length ≤ limit ↔
      ∀ p, p ++ [32] <+: s →
        n + (encoded true p).length + 1 ≠ limit ∧ n + (encoded true p).length + 2 ≠ limit := by
  induction s generalizing n with
  | nil =>
    refine iff_of_true hn fun p hp => ?_
    exact absurd (List.prefix_nil.mp hp) (by simp)
  | cons c s ih =>
    rw [blanks_cons]
    have htext := checkedLength_le_encodedText true c
    have hblank : c = 32 → checkedLength c = 1 ∧ (encodedText true c).length = 3 := by
      rintro rfl
      decide
    unfold encodedPart
    by_cases hstop : n + checkedLength c > limit
    · -- the loop ends: no text of a character comes before the limit
      rw [if_pos ⟨hlimit, hstop⟩]
      refine iff_of_true hn ⟨fun hc => ?_, fun p hp => ?_⟩
      · have := (hblank hc).1
        omega
      · omega
    rw [if_neg fun h => hstop h.2, encoded_cons, List.length_append, ← Nat.add_assoc]
    by_cases hfits : n + (encodedText true c).length ≤ limit
    · rw [ih hfits]
      refine ⟨fun h => ⟨fun hc => ?_, h⟩, fun h => h.2⟩
      have := (hblank hc).2
      omega
    · -- the check has counted one character for a `%20` that has no room
      have hc : c = 32 := by
        by_contra hne
        rw [length_encodedText, if_neg fun h => hne h.1] at hfits
        omega
      obtain ⟨hcheck, hlength⟩ := hblank hc
      refine iff_of_false (by omega) fun h => ?_
      have := h.1 hc
      omega

/-- **The limit of `encodeURL`.**  The call succeeds, unless it gets no memory, and its result is
within the limit and the encoding of a prefix of the URL if and only if no blank that is written as
`%20` comes one or two characters before the limit. -/
theorem truncates_iff (s : CStr) {limit : Nat} (hlimit : limit < noTruncation)
    (bAsciiInCaseOfSpace : Bool) {b : Buffer} (hb : Usable b) :
    encodeURL (some s.cells) (some b) limit bAsciiInCaseOfSpace = .error .badAlloc ∨
      ∃ b' result, encodeURL (some s.cells) (some b) limit bAsciiInCaseOfSpace
          = .ok (.errNoError, some b') ∧ Buffer.Simulates b' (some result) ∧
        (Truncates s.bytes limit bAsciiInCaseOfSpace result ↔
          BlanksFit s.bytes limit bAsciiInCaseOfSpace) := by
  rcases encodeURL_fills s limit bAsciiInCaseOfSpace hb with hbad | ⟨b', hb', hsim⟩
  · exact Or.inl hbad
  refine Or.inr ⟨b', _, hb', hsim, ?_⟩
  have hcut : ∃ p, p <+: s.bytes ∧
      encoded bAsciiInCaseOfSpace (encodedPart limit bAsciiInCaseOfSpace 0 s.bytes)
        = encoded bAsciiInCaseOfSpace p :=
    ⟨_, encodedPart_isPrefix limit bAsciiInCaseOfSpace 0 s.bytes, rfl⟩
  have hlength : (encoded bAsciiInCaseOfSpace
      (encodedPart limit bAsciiInCaseOfSpace 0 s.bytes)).length ≤ limit ↔
      BlanksFit s.bytes limit bAsciiInCaseOfSpace := by
    unfold BlanksFit
    cases bAsciiInCaseOfSpace with
    | false =>
      have h := length_encodedPart_le (n := 0) (s := s.bytes) hlimit.ne (Nat.zero_le _)
      rw [Nat.zero_add] at h
      exact iff_of_true h nofun
    | true =>
      have h := length_encodedPart_le_iff (n := 0) (s := s.bytes) hlimit.ne (Nat.zero_le _)
      simp only [Nat.zero_add] at h
      rw [h]
      exact ⟨fun h _ => h, fun h => h rfl⟩
  exact ⟨fun h => hlength.mp h.1, fun h => ⟨hlength.mpr h, hcut⟩⟩

/-- The text `a b` fits into four characters only as a whole or up to the blank. -/
theorem truncates_iff_fits :
    ∃ b' result, encodeURL (some (literal [97, 32, 98])) (some Buffer.built) 4 true
        = .ok (.errNoError, some b') ∧ Buffer.Simulates b' (some result) ∧
      Truncates [97, 32, 98] 4 true result := by
  have h := truncates_iff ⟨[97, 32, 98], by decide⟩ (show 4 < noTruncation by decide) true
    (b := Buffer.built) (Or.inl Buffer.built_idle)
  obtain hbad | ⟨b', result, hb', hsim, hiff⟩ := h
  · exact absurd hbad (by rintro ⟨⟩)
  · refine ⟨b', result, hb', hsim, hiff.mpr fun _ p hp => ?_⟩
    obtain rfl : p = [97] := by
      rcases p with _ | ⟨a, _ | ⟨b, _ | ⟨c, p⟩⟩⟩ <;> simp at hp ⊢
      all_goals grind
    decide

/-- With the limit two the text `a b` gives `a%20`. -/
theorem not_truncates_blank :
    ∃ b' result, encodeURL (some (literal [97, 32, 98])) (some Buffer.built) 2 true
        = .ok (.errNoError, some b') ∧ Buffer.Simulates b' (some result) ∧
      result = [97, 37, 50, 48] ∧ ¬ Truncates [97, 32, 98] 2 true result := by
  have h := encodeURL_fills ⟨[97, 32, 98], by decide⟩ 2 true (Or.inl Buffer.built_idle)
  obtain hbad | ⟨b', hb', hsim⟩ := h
  · exact absurd hbad (by rintro ⟨⟩)
  · have hresult : (encodedPart 2 true 0 [97, 32, 98]).flatMap (encodedText true)
        = [97, 37, 50, 48] := by decide
    exact ⟨b', _, hb', hsim, hresult, fun h => absurd h.1 (by decide)⟩

end WebUtility

end CatraLibraries
