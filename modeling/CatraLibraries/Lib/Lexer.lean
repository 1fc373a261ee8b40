/-
# Lexical analysis by rules

A scanner as lex describes it: a list of rules, each with a pattern and an action.  At every place
of the text the rule is taken that matches the longest piece, the first of them where several
match it; the action makes a token of the piece, or none.  A character that no rule matches is
skipped.

`scan_append` is the rule for proofs: a piece that a rule matches is cut off the text when no rule
matches a longer one.
-/
import Mathlib.Data.List.Basic

namespace Lexer

universe u

/-- A rule: the pieces that it matches, and what it makes of them. -/
structure Rule (τ : Type u) where
  pattern : List Char → Bool
  action : List Char → Option τ

variable {τ : Type u} (rules : List (Rule τ))

/-- The first rule that matches a piece. -/
def ruleFor (w : List Char) : Option (Rule τ) := rules.find? (·.pattern w)

/-- The longest piece at the start of the text, of at most so many characters, that a rule
matches. -/
def longest (s : List Char) : Nat → Option (Rule τ × Nat)
  | 0 => none
  | n + 1 =>
    match ruleFor rules (s.take (n + 1)) with
    | some rule => some (rule, n + 1)
    | none => longest s n

/-- The tokens of a text, with a bound on the number of pieces. -/
def scanFuel : Nat → List Char → List τ
  | 0, _ => []
  | _ + 1, [] => []
  | fuel + 1, c :: s =>
    match longest rules (c :: s) (c :: s).length with
    | some (rule, n) =>
      (rule.action ((c :: s).take n)).toList ++ scanFuel fuel ((c :: s).drop n)
    | none => scanFuel fuel s

/-- **The tokens of a text.** -/
def scan (s : List Char) : List τ := scanFuel rules s.length s

/-! ### One piece -/

/-- No rule matches the piece with more of the text. -/
def Ends (w rest : List Char) : Prop :=
  ∀ v, v ≠ [] → v <+: rest → ruleFor rules (w ++ v) = none

variable {rules} {w s rest : List Char} {rule : Rule τ} {n fuel : Nat}

theorem longest_le (h : longest rules s n = some (rule, fuel)) : 1 ≤ fuel ∧ fuel ≤ n := by
  induction n with
  | zero => cases h
  | succ n ih =>
    unfold longest at h
    split at h
    · cases h
      omega
    · have := ih h
      omega

/-- The piece is the longest one. -/
theorem longest_append (hw : w ≠ []) (hrule : ruleFor rules w = some rule)
    (hends : Ends rules w rest) (hn : w.length ≤ n) (hn' : n ≤ (w ++ rest).length) :
    longest rules (w ++ rest) n = some (rule, w.length) := by
  induction n with
  | zero => exact absurd (List.length_eq_zero_iff.mp (Nat.le_zero.mp hn)) hw
  | succ n ih =>
    unfold longest
    rcases Nat.lt_or_ge n w.length with hlt | hge
    · have hlen : n + 1 = w.length := by omega
      rw [hlen, List.take_left, hrule]
    · have htake : (w ++ rest).take (n + 1) = w ++ rest.take (n + 1 - w.length) := by
        rw [List.take_append, List.take_of_length_le (by omega)]
      have hnone : ruleFor rules (w ++ rest.take (n + 1 - w.length)) = none := by
        apply hends _ _ (List.take_prefix _ _)
        intro hnil
        rw [List.take_eq_nil_iff] at hnil
        rcases hnil with hzero | rfl
        · omega
        · rw [List.append_nil] at hn'
          omega
      rw [htake, hnone]
      exact ih hge (by omega)

/-- The bound does not matter when it is large enough. -/
theorem scanFuel_eq (h : s.length ≤ fuel) : scanFuel rules fuel s = scan rules s := by
  have key : ∀ n fuel' (s : List Char), s.length ≤ n → n ≤ fuel' →
      scanFuel rules n s = scanFuel rules fuel' s := by
    intro n
    induction n with
    | zero =>
      intro fuel' s hs _
      obtain rfl : s = [] := List.length_eq_zero_iff.mp (Nat.le_zero.mp hs)
      cases fuel' <;> rfl
    | succ n ih =>
      intro fuel' s hs hfuel
      obtain ⟨fuel', rfl⟩ : ∃ m, fuel' = m + 1 := ⟨fuel' - 1, by omega⟩
      cases s with
      | nil => rfl
      | cons c s =>
        rw [List.length_cons] at hs
        unfold scanFuel
        cases hlongest : longest rules (c :: s) (c :: s).length with
        | none => exact ih fuel' s (by omega) (by omega)
        | some r =>
          obtain ⟨rule, k⟩ := r
          have hk := longest_le hlongest
          have hdrop : ((c :: s).drop k).length ≤ n := by
            rw [List.length_drop, List.length_cons]
            omega
          dsimp only
          rw [ih fuel' _ hdrop (by omega)]
  exact (key s.length fuel s (Nat.le_refl _) h).symm

@[simp] theorem scan_nil : scan rules [] = [] := rfl

/-- **A piece that ends here is the next one.** -/
theorem scan_append (hw : w ≠ []) (hrule : ruleFor rules w = some rule)
    (hends : Ends rules w rest) :
    scan rules (w ++ rest) = (rule.action w).toList ++ scan rules rest := by
  obtain ⟨c, w, rfl⟩ := List.exists_cons_of_ne_nil hw
  have hlongest := longest_append hw hrule hends (by simp) (Nat.le_refl _)
  have hlen : rest.length ≤ (w ++ rest).length := by simp
  unfold scan
  rw [List.cons_append] at hlongest ⊢
  rw [List.length_cons, scanFuel, hlongest]
  dsimp only
  rw [← List.cons_append, List.take_left, List.drop_left, scanFuel_eq hlen]
  rfl

/-! ### Token after token -/

/-- The first token and the text behind it, with a bound on the number of pieces. -/
def nextTokenFuel (rules : List (Rule τ)) : Nat → List Char → Option (τ × List Char)
  | 0, _ => none
  | _ + 1, [] => none
  | fuel + 1, c :: s =>
    match longest rules (c :: s) (c :: s).length with
    | some (rule, n) =>
      match rule.action ((c :: s).take n) with
      | some token => some (token, (c :: s).drop n)
      | none => nextTokenFuel rules fuel ((c :: s).drop n)
    | none => nextTokenFuel rules fuel s

/-- The first token of a text and the text behind it; `none` at the end of the text. -/
def nextToken (rules : List (Rule τ)) (s : List Char) : Option (τ × List Char) :=
  nextTokenFuel rules s.length s

/-- The tokens, from the first one on. -/
theorem scan_of_nextTokenFuel (h : s.length ≤ fuel) :
    (nextTokenFuel rules fuel s = none → scan rules s = []) ∧
      ∀ token rest, nextTokenFuel rules fuel s = some (token, rest) →
        scan rules s = token :: scan rules rest := by
  induction fuel generalizing s with
  | zero =>
    obtain rfl : s = [] := List.length_eq_zero_iff.mp (Nat.le_zero.mp h)
    exact ⟨fun _ => rfl, fun _ _ hnone => by cases hnone⟩
  | succ fuel ih =>
    cases s with
    | nil => exact ⟨fun _ => rfl, fun _ _ hnone => by cases hnone⟩
    | cons c s =>
      rw [List.length_cons] at h
      have hscan : scan rules (c :: s) = scanFuel rules (s.length + 1) (c :: s) := rfl
      rw [hscan]
      unfold scanFuel nextTokenFuel
      cases hlongest : longest rules (c :: s) (c :: s).length with
      | none =>
        dsimp only
        rw [scanFuel_eq (Nat.le_refl _)]
        exact ih (Nat.le_of_succ_le_succ h)
      | some r =>
        obtain ⟨rule, n⟩ := r
        have hn := longest_le hlongest
        have hdrop : ((c :: s).drop n).length ≤ s.length := by
          rw [List.length_drop, List.length_cons]
          omega
        dsimp only
        rw [scanFuel_eq hdrop]
        cases rule.action ((c :: s).take n) with
        | none => exact ih (Nat.le_trans hdrop (Nat.le_of_succ_le_succ h))
        | some token =>
          refine ⟨fun hsome => (by cases hsome), fun token' rest hsome => ?_⟩
          cases hsome
          rfl

/-- The text behind a token is shorter. -/
theorem nextTokenFuel_length {token : τ} (h : nextTokenFuel rules fuel s = some (token, rest)) :
    rest.length < s.length ∧ rest <:+ s := by
  induction fuel generalizing s with
  | zero => cases h
  | succ fuel ih =>
    cases s with
    | nil => cases h
    | cons c s =>
      unfold nextTokenFuel at h
      cases hlongest : longest rules (c :: s) (c :: s).length with
      | none =>
        rw [hlongest] at h
        obtain ⟨hlt, hsuffix⟩ := ih h
        exact ⟨Nat.lt_succ_of_lt hlt, hsuffix.trans (List.suffix_cons c s)⟩
      | some r =>
        obtain ⟨rule, n⟩ := r
        have hn := longest_le hlongest
        have hlt : ((c :: s).drop n).length < (c :: s).length := by
          rw [List.length_drop, List.length_cons]
          omega
        rw [hlongest] at h
        dsimp only at h
        cases haction : rule.action ((c :: s).take n) with
        | none =>
          rw [haction] at h
          obtain ⟨hlt', hsuffix⟩ := ih h
          exact ⟨Nat.lt_trans hlt' hlt, hsuffix.trans (List.drop_suffix n _)⟩
        | some token =>
          rw [haction] at h
          cases h
          exact ⟨hlt, List.drop_suffix n _⟩

theorem scan_of_nextToken_none (h : nextToken rules s = none) : scan rules s = [] :=
  (scan_of_nextTokenFuel (Nat.le_refl _)).1 h

/-- **The tokens of a text are the first one and those of the text behind it.** -/
theorem scan_of_nextToken_some {token : τ} (h : nextToken rules s = some (token, rest)) :
    scan rules s = token :: scan rules rest :=
  (scan_of_nextTokenFuel (Nat.le_refl _)).2 token rest h

theorem nextToken_length {token : τ} (h : nextToken rules s = some (token, rest)) :
    rest.length < s.length ∧ rest <:+ s :=
  nextTokenFuel_length h

end Lexer
