/-
# Cutting a C string into tokens

`strtok_r` on a block: it skips the delimiters at the place where it begins, puts a NUL over
the first delimiter behind the token and keeps the place after it.  A program that calls it
again and again never looks at the cells: from a place that holds the string `s`, the call
answers as `cutToken s` does, and the place that it keeps holds the rest.

`tokens` are the pieces between the delimiters that are not empty, and `cutToken` takes the
first of them.
-/
import CatraLibraries.Lib.CString
import Mathlib.Data.List.Basic

namespace CString

open Memory

/-! ### strtok_r -/

/-- `strspn (m, set)`. -/
def strspn (set : List UInt8) : Cells UInt8 → Except Fault Nat
  | [] => .error .outOfBounds
  | none :: _ => .error .uninitialised
  | some c :: m => if c ≠ 0 ∧ c ∈ set then do return (← strspn set m) + 1 else .ok 0

/-- `strcspn (m, set)`. -/
def strcspn (set : List UInt8) : Cells UInt8 → Except Fault Nat
  | [] => .error .outOfBounds
  | none :: _ => .error .uninitialised
  | some c :: m => if c = 0 ∨ c ∈ set then .ok 0 else do return (← strcspn set m) + 1

/-- `strtok_r` from the place `i` of the block on: where the token begins, `none` for NULL, the
place that is kept, and the block after it. -/
def strtokR (set : List UInt8) (m : Cells UInt8) (i : Nat) :
    Except Fault (Option Nat × Nat × Cells UInt8) := do
  let i := i + (← strspn set (m.drop i))
  if (← load m i) = 0 then return (none, i, m)
  else
    let stop := i + (← strcspn set (m.drop i))
    if (← load m stop) = 0 then return (some i, stop, m)
    else return (some i, stop + 1, ← store m stop 0)

/-! ### Tokens of a string -/

variable (set : List UInt8)

/-- The first token of a string and what follows its delimiter. -/
def cutToken (s : List UInt8) : Option (List UInt8 × List UInt8) :=
  match s.dropWhile (· ∈ set) with
  | [] => none
  | c :: s => some ((c :: s).takeWhile (· ∉ set), ((c :: s).dropWhile (· ∉ set)).drop 1)

/-- The tokens of a string. -/
def tokens (s : List UInt8) : List (List UInt8) :=
  (s.splitOnP (· ∈ set)).filter (· ≠ [])

variable {set} {s token rest : List UInt8}

theorem tokens_cons_delimiter {c : UInt8} (hc : c ∈ set) : tokens set (c :: s) = tokens set s := by
  unfold tokens
  have h : ([] ++ c :: s).splitOnP (· ∈ set) = [] :: s.splitOnP (· ∈ set) :=
    List.splitOnP_append_cons_of_forall_mem (by simp) c (by simpa using hc) s
  rw [List.nil_append] at h
  rw [h]
  rfl

/-- A string is a token when no delimiter is in it. -/
theorem tokens_of_notMem (h : ∀ c ∈ s, c ∉ set) (hne : s ≠ []) : tokens set s = [s] := by
  unfold tokens
  rw [List.splitOnP_eq_singleton fun c hc => by simpa using h c hc]
  simp [hne]

theorem tokens_append_cons (h : ∀ c ∈ token, c ∉ set) (hne : token ≠ []) {d : UInt8}
    (hd : d ∈ set) (rest : List UInt8) :
    tokens set (token ++ d :: rest) = token :: tokens set rest := by
  unfold tokens
  rw [List.splitOnP_append_cons_of_forall_mem (fun c hc => by simpa using h c hc) d
    (by simpa using hd)]
  simp [hne]

/-- How a string is cut: delimiters, a token, and behind the delimiter after it the rest. -/
inductive Cut (set : List UInt8) : List UInt8 → Option (List UInt8 × List UInt8) → Prop
  | none {skip : List UInt8} (hskip : ∀ c ∈ skip, c ∈ set) : Cut set skip none
  | last {skip token : List UInt8} (hskip : ∀ c ∈ skip, c ∈ set) (htoken : ∀ c ∈ token, c ∉ set)
      (hne : token ≠ []) : Cut set (skip ++ token) (some (token, []))
  | next {skip token rest : List UInt8} {d : UInt8} (hskip : ∀ c ∈ skip, c ∈ set)
      (htoken : ∀ c ∈ token, c ∉ set) (hne : token ≠ []) (hd : d ∈ set) :
      Cut set (skip ++ (token ++ d :: rest)) (some (token, rest))

theorem cutToken_cut (set s : List UInt8) : Cut set s (cutToken set s) := by
  have hskip : ∀ c ∈ s.takeWhile (· ∈ set), c ∈ set := fun c hc => by
    simpa using List.mem_takeWhile_imp hc
  have hs : s.takeWhile (· ∈ set) ++ s.dropWhile (· ∈ set) = s := List.takeWhile_append_dropWhile
  unfold cutToken
  cases hdrop : s.dropWhile (· ∈ set) with
  | nil =>
    rw [hdrop, List.append_nil] at hs
    rw [hs] at hskip
    exact Cut.none hskip
  | cons c u =>
    have hc : c ∉ set := by
      have := List.head_dropWhile_not (· ∈ set) (l := s) (by simp [hdrop])
      simpa [hdrop] using this
    have htoken : ∀ b ∈ (c :: u).takeWhile (· ∉ set), b ∉ set := fun b hb => by
      simpa using List.mem_takeWhile_imp hb
    have hne : (c :: u).takeWhile (· ∉ set) ≠ [] := by simp [hc]
    have hu : (c :: u).takeWhile (· ∉ set) ++ (c :: u).dropWhile (· ∉ set) = c :: u :=
      List.takeWhile_append_dropWhile
    rw [hdrop, ← hu] at hs
    dsimp only
    cases hrest : (c :: u).dropWhile (· ∉ set) with
    | nil =>
      rw [hrest, List.append_nil] at hs
      rw [← hs]
      exact Cut.last hskip htoken hne
    | cons d rest =>
      have hd : d ∈ set := by
        have hhead := List.head?_dropWhile_not (· ∉ set) (c :: u)
        rw [hrest] at hhead
        simpa using hhead
      rw [hrest] at hs
      rw [← hs]
      exact Cut.next hskip htoken hne hd

/-- A token at the beginning of the string is cut at its delimiter. -/
theorem cutToken_append_cons (htoken : ∀ c ∈ token, c ∉ set) (hne : token ≠ []) {d : UInt8}
    (hd : d ∈ set) (rest : List UInt8) :
    cutToken set (token ++ d :: rest) = some (token, rest) := by
  have hskip : (token ++ d :: rest).dropWhile (· ∈ set) = token ++ d :: rest := by
    obtain ⟨c, u, rfl⟩ := List.exists_cons_of_ne_nil hne
    rw [List.cons_append, List.dropWhile_cons_of_neg]
    simpa using htoken c List.mem_cons_self
  have htake : (token ++ d :: rest).takeWhile (· ∉ set) = token := by
    rw [List.takeWhile_append_of_pos (by simpa using htoken), List.takeWhile_cons_of_neg (by simpa),
      List.append_nil]
  have hdrop : (token ++ d :: rest).dropWhile (· ∉ set) = d :: rest := by
    rw [List.dropWhile_append_of_pos (by simpa using htoken), List.dropWhile_cons_of_neg (by simpa)]
  obtain ⟨c, u, hcons⟩ : ∃ c u, token ++ d :: rest = c :: u :=
    List.exists_cons_of_ne_nil (by simp)
  unfold cutToken
  rw [hskip]
  rw [hcons] at htake hdrop ⊢
  dsimp only
  rw [htake, hdrop]
  rfl

theorem tokens_skip {skip : List UInt8} (hskip : ∀ c ∈ skip, c ∈ set) (s : List UInt8) :
    tokens set (skip ++ s) = tokens set s := by
  induction skip with
  | nil => rfl
  | cons c skip ih =>
    rw [List.cons_append, tokens_cons_delimiter (hskip c List.mem_cons_self)]
    exact ih fun b hb => hskip b (List.mem_cons_of_mem c hb)

/-- **`cutToken` takes the first token.** -/
theorem tokens_eq_cutToken (set s : List UInt8) :
    tokens set s = match cutToken set s with
      | none => []
      | some (token, rest) => token :: tokens set rest := by
  have hcut := cutToken_cut set s
  generalize cutToken set s = o at hcut
  cases hcut with
  | none hskip =>
    rw [← List.append_nil s, tokens_skip hskip]
    rfl
  | last hskip htoken hne => rw [tokens_skip hskip, tokens_of_notMem htoken hne]; rfl
  | next hskip htoken hne hd => rw [tokens_skip hskip, tokens_append_cons htoken hne hd]

theorem cutToken_length (h : cutToken set s = some (token, rest)) : rest.length < s.length := by
  have hcut := cutToken_cut set s
  rw [h] at hcut
  cases hcut with
  | last hskip htoken hne =>
    have hpos := List.length_pos_iff.mpr hne
    rw [List.length_append, List.length_nil]
    omega
  | next hskip htoken hne hd => simp; omega

/-! ### What strtok_r answers -/

variable {m x : Cells UInt8}

theorem strspn_append {skip : List UInt8} {c : UInt8} (hskip : ∀ b ∈ skip, b ∈ set)
    (hnul : 0 ∉ skip) (hc : c = 0 ∨ c ∉ set) :
    strspn set (skip.map some ++ some c :: x) = .ok skip.length := by
  induction skip with
  | nil =>
    have hstop : ¬(c ≠ 0 ∧ c ∈ set) := fun h => hc.elim h.1 fun hc => hc h.2
    exact if_neg hstop
  | cons b skip ih =>
    have hb : b ≠ 0 ∧ b ∈ set :=
      ⟨fun h => hnul (by simp [h]), hskip b List.mem_cons_self⟩
    have hrest := ih (fun b hb => hskip b (List.mem_cons_of_mem _ hb))
      fun h => hnul (List.mem_cons_of_mem b h)
    rw [List.map_cons, List.cons_append, strspn, if_pos hb, hrest]
    rfl

theorem strcspn_append {token : List UInt8} {c : UInt8} (htoken : ∀ b ∈ token, b ∉ set)
    (hnul : 0 ∉ token) (hc : c = 0 ∨ c ∈ set) :
    strcspn set (token.map some ++ some c :: x) = .ok token.length := by
  induction token with
  | nil => exact if_pos hc
  | cons b token ih =>
    have hb : ¬(b = 0 ∨ b ∈ set) := fun h =>
      h.elim (fun h => hnul (by simp [h])) (htoken b List.mem_cons_self)
    have hrest := ih (fun b hb => htoken b (List.mem_cons_of_mem _ hb))
      fun h => hnul (List.mem_cons_of_mem b h)
    rw [List.map_cons, List.cons_append, strcspn, if_neg hb, hrest]
    rfl

theorem load_of_drop {i : Nat} {a : UInt8} (h : m.drop i = some a :: x) : load m i = .ok a := by
  have hget : m[i]? = some (some a) := by
    rw [← Nat.add_zero i, ← List.getElem?_drop, h]
    rfl
  unfold load
  rw [hget]

theorem drop_add_of_drop {i : Nat} {y : Cells UInt8} (h : m.drop i = y ++ x) :
    m.drop (i + y.length) = x := by
  rw [← List.drop_drop, h, List.drop_left]

/-- **One call of `strtok_r`** from a place that holds a string. -/
theorem strtokR_cut (set : List UInt8) {i : Nat} (h : Holds (m.drop i) s) :
    match cutToken set s with
    | none => ∃ j, strtokR set m i = .ok (none, j, m) ∧ Holds (m.drop j) []
    | some (token, rest) => ∃ k j m', strtokR set m i = .ok (some k, j, m') ∧
        Holds (m'.drop k) token ∧ Holds (m'.drop j) rest := by
  have hcut := cutToken_cut set s
  generalize cutToken set s = o at hcut
  obtain ⟨hnul, x, hx⟩ := h
  unfold strtokR
  cases hcut with
  | none hskip =>
    have hspn : strspn set (m.drop i) = .ok s.length := by
      rw [hx]
      exact strspn_append hskip hnul (Or.inl rfl)
    have hend : m.drop (i + s.length) = some 0 :: x := by
      simpa using drop_add_of_drop hx
    refine ⟨i + s.length, ?_, ⟨by simp, x, hend⟩⟩
    rw [hspn, ok_bind]
    dsimp only
    rw [load_of_drop hend, ok_bind, if_pos rfl]
    rfl
  | @last skip token hskip htoken hne =>
    obtain ⟨hskipNul, htokenNul⟩ : 0 ∉ skip ∧ 0 ∉ token := by simpa using hnul
    obtain ⟨c, u, rfl⟩ := List.exists_cons_of_ne_nil hne
    have hc : c ≠ 0 := fun h => htokenNul (by simp [h])
    have hx : m.drop i = skip.map some ++ some c :: (u.map some ++ some 0 :: x) := by
      rw [hx]; simp
    have hspn : strspn set (m.drop i) = .ok skip.length := by
      rw [hx]
      exact strspn_append hskip hskipNul (Or.inr (htoken c List.mem_cons_self))
    have hbegin : m.drop (i + skip.length) = some c :: (u.map some ++ some 0 :: x) := by
      simpa using drop_add_of_drop hx
    have hcspn : strcspn set (m.drop (i + skip.length)) = .ok (c :: u).length := by
      rw [hbegin]
      exact strcspn_append htoken htokenNul (Or.inl rfl)
    have hend : m.drop (i + skip.length + (c :: u).length) = some 0 :: x := by
      have htail : m.drop (i + skip.length) = (c :: u).map some ++ some 0 :: x := hbegin
      simpa using drop_add_of_drop htail
    refine ⟨i + skip.length, i + skip.length + (c :: u).length, m, ?_,
      ⟨htokenNul, x, hbegin⟩, ⟨by simp, x, hend⟩⟩
    rw [hspn, ok_bind]
    dsimp only
    rw [load_of_drop hbegin, ok_bind, if_neg hc, hcspn, ok_bind,
      load_of_drop hend, ok_bind, if_pos rfl]
    rfl
  | @next skip token rest d hskip htoken hne hd =>
    obtain ⟨hskipNul, htokenNul, hd0, hrestNul⟩ : 0 ∉ skip ∧ 0 ∉ token ∧ 0 ≠ d ∧ 0 ∉ rest := by
      simpa using hnul
    obtain ⟨c, u, rfl⟩ := List.exists_cons_of_ne_nil hne
    have hc : c ≠ 0 := fun h => htokenNul (by simp [h])
    have hx : m.drop i
        = skip.map some ++ some c :: (u.map some ++ some d :: (rest.map some ++ some 0 :: x)) := by
      rw [hx]; simp
    have hspn : strspn set (m.drop i) = .ok skip.length := by
      rw [hx]
      exact strspn_append hskip hskipNul (Or.inr (htoken c List.mem_cons_self))
    have hbegin : m.drop (i + skip.length)
        = (c :: u).map some ++ some d :: (rest.map some ++ some 0 :: x) := by
      simpa using drop_add_of_drop hx
    have hcspn : strcspn set (m.drop (i + skip.length)) = .ok (c :: u).length := by
      rw [hbegin]
      exact strcspn_append htoken htokenNul (Or.inr hd)
    have hend : m.drop (i + skip.length + (c :: u).length)
        = some d :: (rest.map some ++ some 0 :: x) := by
      simpa using drop_add_of_drop hbegin
    have hlt : i + skip.length + (c :: u).length < m.length := by
      by_contra hge
      rw [List.drop_eq_nil_of_le (Nat.not_lt.mp hge)] at hend
      exact absurd hend (by simp)
    -- the delimiter behind the token becomes its NUL
    refine ⟨i + skip.length, i + skip.length + (c :: u).length + 1,
      m.set (i + skip.length + (c :: u).length) (some 0), ?_,
      ⟨htokenNul, rest.map some ++ some 0 :: x, ?_⟩, ⟨hrestNul, x, ?_⟩⟩
    · rw [hspn, ok_bind]
      dsimp only
      rw [load_of_drop hbegin, ok_bind, if_neg hc, hcspn, ok_bind,
        load_of_drop hend, ok_bind, if_neg (Ne.symm hd0), store_ok 0 hlt]
      rfl
    · rw [List.drop_set, if_neg (by omega), hbegin, Nat.add_sub_cancel_left,
        List.set_append_right _ _ (by simp)]
      simp
    · rw [List.drop_set, if_pos (by omega), ← List.drop_drop, hend]
      rfl

end CString
