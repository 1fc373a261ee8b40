/-
# C strings

A C string is the bytes of a block up to its first NUL.  The functions of
`<string.h>` used below read a block cell by cell and fault where the real ones
have no defined behaviour: past the end of the block, or on a cell that was never
written.

`Holds m s` says that the block `m` starts with the string `s` and its NUL.  Each
function has one lemma on blocks that hold a string, and each way of writing into
such a block has one lemma for the string it holds afterwards; a caller never
looks at cells again.
-/
import Mathlib.Data.List.TakeWhile
import CatraLibraries.Lib.Memory
import CatraLibraries.Lib.Substring

namespace CString

open Memory Substring

/-! ### The functions of string.h -/

/-- The bytes of a block up to its first NUL. -/
def cstr : Cells UInt8 → Except Fault (List UInt8)
  | [] => .error .outOfBounds
  | none :: _ => .error .uninitialised
  | some c :: m => if c = 0 then .ok [] else do return c :: (← cstr m)

/-- `strlen (m)`. -/
def strlen (m : Cells UInt8) : Except Fault Nat := do
  return (← cstr m).length

/-- `strcpy (dst + i, src)`. -/
def strcpy (dst : Cells UInt8) (i : Nat) (src : Cells UInt8) : Except Fault (Cells UInt8) := do
  let n ← strlen src
  memcpy dst i src (n + 1)

/-- The `n` cells `strncpy` writes: those of `src`, NULs from its first NUL on. -/
def strncpyCells : Cells UInt8 → Nat → Except Fault (Cells UInt8)
  | _, 0 => .ok []
  | [], _ + 1 => .error .outOfBounds
  | none :: _, _ + 1 => .error .uninitialised
  | some c :: m, n + 1 =>
    if c = 0 then .ok (List.replicate (n + 1) (some 0))
    else do return some c :: (← strncpyCells m n)

/-- `strncpy (dst + i, src, n)`. -/
def strncpy (dst : Cells UInt8) (i : Nat) (src : Cells UInt8) (n : Nat) :
    Except Fault (Cells UInt8) := do
  writeAt dst i (← strncpyCells src n)

/-- The bytes of a block up to its first NUL, `n` at most. -/
def cstrn : Cells UInt8 → Nat → Except Fault (List UInt8)
  | _, 0 => .ok []
  | [], _ + 1 => .error .outOfBounds
  | none :: _, _ + 1 => .error .uninitialised
  | some c :: m, n + 1 => if c = 0 then .ok [] else do return c :: (← cstrn m n)

/-- `strcat (dst, src)`. -/
def strcat (dst src : Cells UInt8) : Except Fault (Cells UInt8) := do
  let i ← strlen dst
  strcpy dst i src

/-- `strncat (dst, src, n)`. -/
def strncat (dst src : Cells UInt8) (n : Nat) : Except Fault (Cells UInt8) := do
  let i ← strlen dst
  let bytes ← cstrn src n
  writeAt dst i (bytes.map some ++ [some 0])

/-- `strncmp (m, pat, strlen (pat)) == 0`, for the bytes `pat` of a string. -/
def strncmp : Cells UInt8 → List UInt8 → Except Fault Bool
  | _, [] => .ok true
  | [], _ :: _ => .error .outOfBounds
  | none :: _, _ :: _ => .error .uninitialised
  | some c :: m, p :: pat => if c = p then strncmp m pat else .ok false

/-- `strncmp (m, m', n) == 0`: up to `n` characters are compared, and none behind a NUL. -/
def strncmpUpTo : Cells UInt8 → Cells UInt8 → Nat → Except Fault Bool
  | _, _, 0 => .ok true
  | some c :: m, some d :: m', n + 1 =>
    if c ≠ d then .ok false else if c = 0 then .ok true else strncmpUpTo m m' n
  | none :: _, _, _ + 1 => .error .uninitialised
  | _, none :: _, _ + 1 => .error .uninitialised
  | _, _, _ + 1 => .error .outOfBounds

/-- `strchr (m, c)`; the NUL of the string is one of its characters. -/
def strchr (m : Cells UInt8) (c : UInt8) : Except Fault (Option Nat) := do
  let s ← cstr m
  return (s ++ [0]).idxOf? c

/-- `strchr (m, c)` for another character than NUL: the search stops at the first match or at the
NUL. -/
def seekChar : Cells UInt8 → UInt8 → Except Fault (Option Nat)
  | [], _ => .error .outOfBounds
  | none :: _, _ => .error .uninitialised
  | some d :: m, c =>
    if d = c then .ok (some 0)
    else if d = 0 then .ok none
    else seekChar m c >>= fun i => .ok (i.map (· + 1))

/-- `strrchr (m, c)`. -/
def strrchr (m : Cells UInt8) (c : UInt8) : Except Fault (Option Nat) := do
  let s ← cstr m
  return ((s ++ [0]).reverse.idxOf? c).map (s.length - ·)

/-- `strstr (m, pat)`: the search stops at the first match or at the NUL. -/
def strstr : Cells UInt8 → List UInt8 → Except Fault (Option Nat)
  | [], pat => if pat = [] then .ok (some 0) else .error .outOfBounds
  | cell :: m, pat => do
    if ← strncmp (cell :: m) pat then return some 0
    else
      match cell with
      | none => .error .uninitialised
      | some c =>
        if c = 0 then return none
        else return (← strstr m pat).map (· + 1)

/-! ### The visible part of a byte list -/

/-- The bytes before the first zero. -/
def visible (s : List UInt8) : List UInt8 := s.takeWhile (· ≠ 0)

theorem visible_cons (c : UInt8) (s : List UInt8) :
    visible (c :: s) = if c = 0 then [] else c :: visible s := by
  unfold visible
  rw [List.takeWhile_cons]
  by_cases hc : c = 0
  · simp [hc]
  · simp [hc]

theorem visible_split (s : List UInt8) :
    visible s = s ∨ ∃ u, s = visible s ++ 0 :: u := by
  induction s with
  | nil => exact Or.inl rfl
  | cons c s ih =>
    by_cases hc : c = 0
    · exact Or.inr ⟨s, by simp [visible, hc]⟩
    · rcases ih with h | ⟨u, h⟩
      · exact Or.inl (by simpa [visible, hc] using h)
      · exact Or.inr ⟨u, by simpa [visible, hc] using h⟩

theorem visible_isPrefixOf (s : List UInt8) : visible s <+: s := List.takeWhile_prefix _

theorem zero_notMem_visible (s : List UInt8) : 0 ∉ visible s := by
  intro h
  have := List.mem_takeWhile_imp h
  simp at this

theorem visible_eq_self {s : List UInt8} (hs : 0 ∉ s) : visible s = s := by
  refine List.takeWhile_eq_self_iff.mpr fun c hc => ?_
  simp only [ne_eq, decide_eq_true_eq]
  rintro rfl
  exact hs hc

/-! ### Blocks that hold a string -/

/-- The block `m` starts with the string `s` and its NUL. -/
structure Holds (m : Cells UInt8) (s : List UInt8) : Prop where
  nulFree : 0 ∉ s
  split : ∃ rest, m = s.map some ++ some 0 :: rest

/-- The block `m` starts with the bytes `s`, which may be zero, and a NUL. -/
def Terminated (m : Cells UInt8) (s : List UInt8) : Prop :=
  ∃ rest, m = s.map some ++ some 0 :: rest

/-- A NUL-free byte string: what a `const char *` argument can denote. -/
structure CStr where
  bytes : List UInt8
  nulFree : 0 ∉ bytes
  deriving DecidableEq

/-- The bytes of a literal in the source. -/
def bytesOf (s : String) : List UInt8 := s.toList.map fun c => UInt8.ofNat c.toNat

/-- The block of a string literal. -/
def CStr.cells (s : CStr) : Cells UInt8 := s.bytes.map some ++ [some 0]

theorem CStr.holds (s : CStr) : Holds s.cells s.bytes :=
  ⟨s.nulFree, [], rfl⟩

variable {m : Cells UInt8} {s t : List UInt8}

/-- Bytes that are no zeros end before the first zero of a block that begins with them. -/
theorem length_le_of_zero {rest : Cells UInt8} (hs : 0 ∉ s) {k : Nat}
    (hk : (s.map some ++ rest)[k]? = some (some 0)) : s.length ≤ k := by
  by_contra hlt
  rw [List.getElem?_append_left (by rw [List.length_map]; omega), List.getElem?_map,
    Option.map_eq_some_iff] at hk
  obtain ⟨c, hc, hzero⟩ := hk
  obtain rfl := Option.some.inj hzero
  exact hs (List.mem_of_getElem? hc)

theorem isPrefix_of_map_append {rest rest' : Cells UInt8} (hle : s.length ≤ t.length)
    (h : s.map some ++ rest = t.map some ++ rest') : s <+: t := by
  have hmap : s.map some <+: t.map some := by
    refine List.prefix_of_prefix_length_le ⟨rest, h⟩ ⟨rest', rfl⟩ ?_
    rw [List.length_map, List.length_map]
    exact hle
  obtain ⟨y, hy⟩ := hmap
  obtain ⟨s', y', hsplit, hs', -⟩ := List.map_eq_append_iff.mp hy.symm
  obtain rfl : s' = s := List.map_injective_iff.mpr (fun a b h => Option.some.inj h) hs'
  exact ⟨y', hsplit.symm⟩

/-- A block that holds a string begins with no bytes but those of the string and its NUL. -/
theorem Holds.isPrefix (h : Holds m s) {rest : Cells UInt8} (ht : 0 ∉ t)
    (hm : m = t.map some ++ rest) : t <+: s := by
  obtain ⟨tail, hsplit⟩ := h.split
  have hzero : (t.map some ++ rest)[s.length]? = some (some 0) := by
    rw [← hm, hsplit, List.getElem?_append_right (by rw [List.length_map]), List.length_map,
      Nat.sub_self, List.getElem?_cons_zero]
  exact isPrefix_of_map_append (length_le_of_zero ht hzero) (hm.symm.trans hsplit)

theorem Holds.length_lt (h : Holds m s) : s.length < m.length := by
  obtain ⟨rest, rfl⟩ := h.split
  simp

theorem Holds.cstr_eq (h : Holds m s) : cstr m = .ok s := by
  obtain ⟨hnul, rest, rfl⟩ := h
  induction s with
  | nil => simp [cstr]
  | cons c s ih =>
    have hc : c ≠ 0 := fun h => hnul (by simp [h])
    have hs : 0 ∉ s := fun h => hnul (List.mem_cons_of_mem c h)
    simp only [List.map_cons, List.cons_append, cstr, if_neg hc, ih hs, ok_bind]
    rfl

/-- A block holds at most one string. -/
theorem Holds.unique (h : Holds m s) (h' : Holds m t) : s = t :=
  Except.ok.inj (h.cstr_eq.symm.trans h'.cstr_eq)

/-- A block whose string can be read holds it. -/
theorem holds_of_cstr_eq (h : cstr m = .ok s) : Holds m s := by
  induction m generalizing s with
  | nil => simp [cstr] at h
  | cons cell m ih =>
    cases cell with
    | none => simp [cstr] at h
    | some c =>
      simp only [cstr] at h
      split at h
      · next hc =>
        obtain rfl := Except.ok.inj h
        exact ⟨by simp, m, by simp [hc]⟩
      · next hc =>
        obtain ⟨t, ht, hs⟩ := bind_eq_ok.mp h
        obtain rfl := Except.ok.inj hs
        obtain ⟨hnul, rest, rfl⟩ := ih ht
        exact ⟨by simp [hnul, Ne.symm hc], rest, by simp⟩

theorem Holds.strlen_eq (h : Holds m s) : strlen m = .ok s.length := by
  rw [strlen, h.cstr_eq]; rfl

theorem Terminated.length_lt (h : Terminated m s) : s.length < m.length := by
  obtain ⟨rest, rfl⟩ := h
  rw [List.length_append, List.length_map]
  exact Nat.lt_add_of_pos_right (Nat.zero_lt_succ _)

/-- A byte of the string is read where it stands. -/
theorem Terminated.load_eq {x rest : List UInt8} {c : UInt8} (h : Terminated m (x ++ c :: rest))
    {i : Nat} (hi : i = x.length) : load m i = .ok c := by
  obtain ⟨tail, rfl⟩ := h
  subst hi
  have hload := load_append (x.map some) (rest.map some ++ some 0 :: tail) c
  rw [List.length_map] at hload
  rw [List.map_append, List.append_assoc]
  exact hload

/-- The string and its NUL can be read. -/
theorem Terminated.exists_load (h : Terminated m s) {i : Nat} (hi : i ≤ s.length) :
    ∃ c, load m i = .ok c := by
  obtain ⟨rest, rfl⟩ := h
  have hsplit : s.map some ++ some 0 :: rest = (s ++ [0]).map some ++ rest := by simp
  have hlt : i < (s ++ [0]).length := by
    rw [List.length_append, List.length_singleton]
    exact Nat.lt_succ_of_le hi
  refine ⟨(s ++ [0])[i], ?_⟩
  unfold load
  rw [hsplit, List.getElem?_append_left (by rwa [List.length_map]), List.getElem?_map,
    List.getElem?_eq_getElem hlt]
  rfl

/-- A block that starts with bytes and a NUL holds the string before the first zero. -/
theorem Terminated.holds_visible (h : Terminated m s) : Holds m (visible s) := by
  obtain ⟨rest, rfl⟩ := h
  refine ⟨zero_notMem_visible s, ?_⟩
  rcases visible_split s with heq | ⟨tail, hsplit⟩
  · exact ⟨rest, by rw [heq]⟩
  · refine ⟨tail.map some ++ some 0 :: rest, ?_⟩
    conv_lhs => rw [hsplit]
    simp

theorem Terminated.drop (h : Terminated m s) {i : Nat} (hi : i ≤ s.length) :
    Terminated (m.drop i) (s.drop i) := by
  obtain ⟨rest, rfl⟩ := h
  refine ⟨rest, ?_⟩
  rw [List.drop_append_of_le_length (by simpa using hi), List.map_drop]

/-- From inside its string on, a block holds the rest of the string. -/
theorem Holds.drop (h : Holds m s) {i : Nat} (hi : i ≤ s.length) :
    Holds (m.drop i) (s.drop i) :=
  ⟨fun h0 => h.nulFree (List.mem_of_mem_drop h0), Terminated.drop h.split hi⟩

theorem Holds.take_eq (h : Holds m s) {n : Nat} (hn : n ≤ s.length) :
    m.take n = (s.take n).map some := by
  obtain ⟨_, rest, rfl⟩ := h
  rw [List.take_append_of_le_length (by simpa using hn), List.map_take]

theorem Holds.take_succ_eq (h : Holds m s) :
    m.take (s.length + 1) = s.map some ++ [some 0] := by
  obtain ⟨_, rest, rfl⟩ := h
  have hcut : s.map some ++ some 0 :: rest = (s.map some ++ [some 0]) ++ rest := by simp
  rw [hcut]
  exact List.take_left' (by simp)

theorem Holds.strncpyCells_eq (h : Holds m s) {n : Nat} (hn : n ≤ s.length) :
    strncpyCells m n = .ok ((s.take n).map some) := by
  obtain ⟨hnul, rest, rfl⟩ := h
  induction n generalizing s with
  | zero => simp [strncpyCells]
  | succ n ih =>
    cases s with
    | nil => simp at hn
    | cons c s =>
      have hc : c ≠ 0 := fun h => hnul (by simp [h])
      have hs : 0 ∉ s := fun h => hnul (List.mem_cons_of_mem c h)
      simp only [List.map_cons, List.cons_append, strncpyCells, if_neg hc,
        ih (by simpa using hn) hs, ok_bind, List.take_succ_cons]
      rfl

/-- A comparison with a string stops at the NUL at the latest. -/
theorem Terminated.strncmp_eq (h : Terminated m s) {pat : List UInt8} (hpat : 0 ∉ pat) :
    strncmp m pat = .ok (decide (pat <+: s)) := by
  obtain ⟨rest, rfl⟩ := h
  induction pat generalizing s with
  | nil => simp [strncmp]
  | cons p pat ih =>
    have hp : p ≠ 0 := fun h => hpat (by simp [h])
    have hpat' : 0 ∉ pat := fun h => hpat (List.mem_cons_of_mem p h)
    cases s with
    | nil => simp [strncmp, hp.symm]
    | cons c s =>
      by_cases hcp : c = p
      · simp [strncmp, hcp, ih hpat', List.cons_prefix_cons]
      · simp [strncmp, hcp, List.cons_prefix_cons, Ne.symm hcp]

theorem Holds.strncmp_eq (h : Holds m s) {pat : List UInt8} (hpat : 0 ∉ pat) :
    strncmp m pat = .ok (decide (pat <+: s)) :=
  Terminated.strncmp_eq h.split hpat

/-- Two strings agree in a comparison where they do up to their NULs. -/
theorem Holds.strncmpUpTo_eq {m' : Cells UInt8} (h : Holds m s) (h' : Holds m' t) (n : Nat) :
    strncmpUpTo m m' n = .ok (decide ((s ++ [0]).take n = (t ++ [0]).take n)) := by
  obtain ⟨hs, rest, rfl⟩ := h
  obtain ⟨ht, rest', rfl⟩ := h'
  induction s generalizing t n with
  | nil =>
    rcases n with _ | n
    · simp [strncmpUpTo]
    · rcases t with _ | ⟨d, t⟩
      · simp [strncmpUpTo]
      · have hd : (0 : UInt8) ≠ d := fun h => ht (by simp [h])
        simp [strncmpUpTo, hd]
  | cons c s ih =>
    have hc : c ≠ 0 := fun h => hs (by simp [h])
    rcases n with _ | n
    · simp [strncmpUpTo]
    · rcases t with _ | ⟨d, t⟩
      · simp [strncmpUpTo, hc]
      · by_cases hcd : c = d
        · subst hcd
          have hrec := ih n (fun h => hs (List.mem_cons_of_mem c h))
            (fun h => ht (List.mem_cons_of_mem c h))
          simp [strncmpUpTo, hc, hrec]
        · simp [strncmpUpTo, hcd]

theorem Holds.strstr_eq (h : Holds m s) {pat : List UInt8} (hpat : 0 ∉ pat) :
    strstr m pat = .ok (findSub pat s) := by
  induction s generalizing m with
  | nil =>
    have hcmp := h.strncmp_eq hpat
    obtain ⟨_, rest, rfl⟩ := h
    simp only [List.map_nil, List.nil_append] at hcmp ⊢
    simp only [strstr, hcmp, ok_bind, findSub]
    cases pat <;> simp <;> rfl
  | cons c s ih =>
    have hcmp := h.strncmp_eq hpat
    have htail : Holds (m.drop 1) s := h.drop (i := 1) (by simp)
    obtain ⟨hnul, rest, rfl⟩ := h
    have hc : c ≠ 0 := fun h => hnul (by simp [h])
    have hrec := ih htail
    simp only [List.map_cons, List.cons_append, List.drop_one, List.tail_cons] at hcmp hrec ⊢
    simp only [strstr, hcmp, ok_bind, findSub, hrec, if_neg hc]
    by_cases hpre : pat <+: c :: s
    · simp only [hpre, decide_true, if_true]; rfl
    · simp only [hpre, decide_false, if_false, Bool.false_eq_true]; rfl

theorem strncmp_eq_true {pat : List UInt8} (h : strncmp m pat = .ok true) :
    ∃ rest, m = pat.map some ++ rest := by
  induction pat generalizing m with
  | nil => exact ⟨m, rfl⟩
  | cons p pat ih =>
    rcases m with _ | ⟨_ | c, m⟩
    · cases h
    · cases h
    · unfold strncmp at h
      split at h
      · next hcp =>
        obtain ⟨rest, rfl⟩ := ih h
        exact ⟨rest, by rw [hcp]; rfl⟩
      · cases h

/-- Where `strstr` finds something, it has read no NUL before; where it does not, it has read a
string. -/
theorem strstr_inv {pat : List UInt8} {found : Option Nat} (h : strstr m pat = .ok found) :
    match found with
    | some i => ∃ (x : List UInt8) (rest : Cells UInt8),
        m = x.map some ++ (pat.map some ++ rest) ∧ x.length = i ∧ 0 ∉ x
    | none => ∃ s, Holds m s := by
  induction m generalizing found with
  | nil =>
    unfold strstr at h
    split at h
    · next hpat =>
      cases h
      exact ⟨[], [], by rw [hpat]; rfl, rfl, List.not_mem_nil⟩
    · cases h
  | cons cell m ih =>
    unfold strstr at h
    obtain ⟨here, hcmp, h⟩ := bind_eq_ok.mp h
    cases here with
    | true =>
      cases h
      obtain ⟨rest, hrest⟩ := strncmp_eq_true hcmp
      exact ⟨[], rest, hrest, rfl, List.not_mem_nil⟩
    | false =>
      rcases cell with _ | c
      · cases h
      · change (if c = 0 then pure none else strstr m pat >>= fun i => pure (i.map (· + 1))) = _ at h
        split at h
        · next hc =>
          cases h
          exact ⟨[], List.not_mem_nil, m, by rw [hc]; rfl⟩
        · next hc =>
          obtain ⟨next, hnext, h⟩ := bind_eq_ok.mp h
          have hmem : ∀ x : List UInt8, 0 ∉ x → 0 ∉ c :: x := fun x hx h0 =>
            (List.mem_cons.mp h0).elim (fun h => hc h.symm) hx
          cases next with
          | none =>
            cases h
            obtain ⟨s, hnul, rest, rfl⟩ := ih hnext
            exact ⟨c :: s, hmem s hnul, rest, rfl⟩
          | some i =>
            cases h
            obtain ⟨x, rest, rfl, rfl, hx⟩ := ih hnext
            exact ⟨c :: x, rest, rfl, rfl, hmem x hx⟩

theorem idxOf?_of_mem {l : List UInt8} {c : UInt8} (h : c ∈ l) :
    l.idxOf? c = some (l.idxOf c) := by
  induction l with
  | nil => simp at h
  | cons a l ih =>
    rw [List.idxOf?_cons, List.idxOf_cons]
    by_cases hac : a = c
    · simp [hac]
    · have hmem : c ∈ l := (List.mem_cons.mp h).resolve_left (Ne.symm hac)
      have hbeq : (a == c) = false := by simpa using hac
      simp [hbeq, ih hmem]

theorem Holds.strchr_eq (h : Holds m s) (c : UInt8) :
    strchr m c = .ok (if c = 0 then some s.length
      else if c ∈ s then some (s.idxOf c) else none) := by
  rw [strchr, h.cstr_eq, ok_bind]
  refine congrArg Except.ok ?_
  by_cases hc : c = 0
  · subst hc
    rw [if_pos rfl, idxOf?_of_mem (by simp), List.idxOf_append_of_notMem h.nulFree]
    simp
  · rw [if_neg hc]
    by_cases hmem : c ∈ s
    · rw [if_pos hmem, idxOf?_of_mem (by simp [hmem]), List.idxOf_append_of_mem hmem]
    · rw [if_neg hmem, List.idxOf?_eq_none_iff]
      simp [hmem, hc]

theorem Holds.strchr_none (h : Holds m s) {c : UInt8} (hc : c ≠ 0) (hmem : c ∉ s) :
    strchr m c = .ok none := by
  rw [h.strchr_eq, if_neg hc, if_neg hmem]

/-- The first occurrence of a character cuts the string in three. -/
theorem Holds.strchr_split (h : Holds m s) {c : UInt8} (hc : c ≠ 0) (hmem : c ∈ s) :
    ∃ p q, s = p ++ c :: q ∧ c ∉ p ∧ strchr m c = .ok (some p.length) := by
  obtain ⟨p, q, rfl, hp⟩ := List.eq_append_cons_of_mem hmem
  refine ⟨p, q, rfl, hp, ?_⟩
  rw [h.strchr_eq, if_neg hc, if_pos hmem, List.idxOf_append_of_notMem hp]
  simp

theorem Holds.strrchr_eq (h : Holds m s) (c : UInt8) :
    strrchr m c = .ok (if c = 0 then some s.length
      else if c ∈ s then some (s.length - 1 - s.reverse.idxOf c) else none) := by
  rw [strrchr, h.cstr_eq, ok_bind, List.reverse_append, List.reverse_singleton,
    List.singleton_append, List.idxOf?_cons]
  refine congrArg Except.ok ?_
  by_cases hc : c = 0
  · simp [hc]
  · rw [if_neg hc, if_neg (by simpa using Ne.symm hc)]
    by_cases hmem : c ∈ s
    · rw [if_pos hmem, idxOf?_of_mem (by simpa using hmem)]
      simp only [Option.map_some, Nat.sub_sub, Nat.add_comm]
    · rw [if_neg hmem, List.idxOf?_eq_none_iff.mpr (by simpa using hmem)]
      rfl

/-! ### Writing into a block that holds a string -/

/-- Writing a NUL inside the bytes cuts them there. -/
theorem Terminated.store_nul (h : Terminated m s) {i : Nat} (hi : i ≤ s.length) :
    ∃ m', store m i 0 = .ok m' ∧ m'.length = m.length ∧ Terminated m' (s.take i) := by
  refine ⟨_, store_ok 0 (Nat.lt_of_le_of_lt hi h.length_lt), by simp, ?_⟩
  obtain ⟨rest, rfl⟩ := h
  refine ⟨(s.map some ++ some 0 :: rest).drop (i + 1), ?_⟩
  rw [List.set_eq_take_append_cons_drop, if_pos (by simp; omega),
    List.take_append_of_le_length (by simpa using hi), List.map_take]

theorem Holds.store_nul (h : Holds m s) {i : Nat} (hi : i ≤ s.length) :
    ∃ m', store m i 0 = .ok m' ∧ m'.length = m.length ∧ Holds m' (s.take i) := by
  obtain ⟨m', hst, hlen, hm'⟩ := Terminated.store_nul h.split hi
  exact ⟨m', hst, hlen, fun h0 => h.nulFree (List.mem_of_mem_take h0), hm'⟩

/-- Writing another byte inside the bytes replaces the one that was there. -/
theorem Terminated.store_byte (h : Terminated m s) {i : Nat} (hi : i < s.length) (c : UInt8) :
    ∃ m', store m i c = .ok m' ∧ m'.length = m.length ∧ Terminated m' (s.set i c) := by
  refine ⟨_, store_ok c (Nat.lt_trans hi h.length_lt), by simp, ?_⟩
  obtain ⟨rest, rfl⟩ := h
  exact ⟨rest, by rw [List.set_append_left _ _ (by simpa using hi), List.map_set]⟩

theorem Holds.store_byte (h : Holds m s) {i : Nat} (hi : i < s.length) {c : UInt8}
    (hc : c ≠ 0) :
    ∃ m', store m i c = .ok m' ∧ m'.length = m.length ∧ Holds m' (s.set i c) := by
  obtain ⟨m', hst, hlen, hm'⟩ := Terminated.store_byte h.split hi c
  refine ⟨m', hst, hlen, fun h0 => ?_, hm'⟩
  rcases List.mem_or_eq_of_mem_set h0 with h0 | h0
  · exact h.nulFree h0
  · exact hc h0.symm

/-- A list that is long enough, cut into two parts of given lengths, one cell and
the rest. -/
theorem exists_split {α : Type*} (x : List α) {n k : Nat} (h : n + k < x.length) :
    ∃ a b c d, x = a ++ b ++ c :: d ∧ a.length = n ∧ b.length = k := by
  refine ⟨x.take n, (x.drop n).take k, x[n + k], x.drop (n + k + 1), ?_, ?_, ?_⟩
  · rw [List.append_assoc, List.getElem_cons_drop, ← List.drop_drop,
      List.take_append_drop, List.take_append_drop]
  · simp; omega
  · simp; omega

/-- Writing `t` and a NUL behind a prefix of written bytes. -/
theorem store_after_writeAt (hs : 0 ∉ s) (ht : 0 ∉ t) {x : Cells UInt8}
    (hroom : t.length < x.length) :
    ∃ m₁ m₂, writeAt (s.map some ++ x) s.length (t.map some) = .ok m₁ ∧
      store m₁ (s.length + t.length) 0 = .ok m₂ ∧
      m₂.length = s.length + x.length ∧ Holds m₂ (s ++ t) := by
  obtain ⟨a, b, c, d, rfl, ha, hb⟩ := exists_split x (n := 0) (k := t.length) (by omega)
  obtain rfl := List.length_eq_zero_iff.mp ha
  have hold : b.length = (t.map some).length := by simpa using hb
  have hw := writeAt_append (s.map some) (c :: d) hold
  have hst := store_append (s.map some ++ t.map some) d c 0
  refine ⟨_, _, by simpa using hw, by simpa using hst, by simp [hb], ?_, d, by simp⟩
  simp [hs, ht]

/-- A NUL written behind a prefix of written bytes ends them there. -/
theorem store_nul_after (t : List UInt8) {x : Cells UInt8} (hx : x ≠ []) :
    ∃ m', store (t.map some ++ x) t.length 0 = .ok m' ∧
      m'.length = t.length + x.length ∧ Terminated m' t := by
  obtain ⟨c, d, rfl⟩ := List.exists_cons_of_ne_nil hx
  have hst := store_append (t.map some) d c 0
  exact ⟨_, by simpa using hst, by simp, d, rfl⟩

/-- Writing `t` with its NUL behind the string of a block with room for them. -/
theorem Holds.writeAt_string (h : Holds m s) (ht : 0 ∉ t)
    (hroom : s.length + t.length < m.length) :
    ∃ m', writeAt m s.length (t.map some ++ [some 0]) = .ok m' ∧ m'.length = m.length ∧
      Holds m' (s ++ t) := by
  obtain ⟨hnul, rest, rfl⟩ := h
  obtain ⟨a, b, c, d, hx, ha, hb⟩ := exists_split (some 0 :: rest) (n := 0) (k := t.length)
    (by simp at hroom ⊢; omega)
  obtain rfl := List.length_eq_zero_iff.mp ha
  have hold : (b ++ [c]).length = (t.map some ++ [some 0]).length := by simp [hb]
  have hw := writeAt_append (s.map some) d hold
  rw [List.nil_append] at hx
  refine ⟨s.map some ++ (t.map some ++ [some 0]) ++ d, ?_, ?_, ?_, d, by simp⟩
  · rw [hx]
    simpa using hw
  · rw [hx]
    simp [hb]
  · simp [hnul, ht]

theorem Holds.strcat_eq (h : Holds m s) {src : Cells UInt8} (hsrc : Holds src t)
    (hroom : s.length + t.length < m.length) :
    ∃ m', strcat m src = .ok m' ∧ m'.length = m.length ∧ Holds m' (s ++ t) := by
  obtain ⟨m', hw, hlen, hm'⟩ := h.writeAt_string hsrc.nulFree hroom
  refine ⟨m', ?_, hlen, hm'⟩
  rw [strcat, h.strlen_eq, ok_bind, strcpy, hsrc.strlen_eq, ok_bind,
    memcpy_eq_writeAt hsrc.length_lt, hsrc.take_succ_eq, hw]

theorem Holds.cstrn_eq (h : Holds m s) {n : Nat} (hn : n ≤ s.length) :
    cstrn m n = .ok (s.take n) := by
  obtain ⟨hnul, rest, rfl⟩ := h
  induction n generalizing s with
  | zero => simp [cstrn]
  | succ n ih =>
    cases s with
    | nil => simp at hn
    | cons c s =>
      have hc : c ≠ 0 := fun h => hnul (by simp [h])
      have hs : 0 ∉ s := fun h => hnul (List.mem_cons_of_mem c h)
      simp only [List.map_cons, List.cons_append, cstrn, if_neg hc,
        ih (by simpa using hn) hs, ok_bind, List.take_succ_cons]
      rfl

theorem Holds.strncat_eq (h : Holds m s) {src : Cells UInt8} (hsrc : Holds src t) {n : Nat}
    (hn : n ≤ t.length) (hroom : s.length + n < m.length) :
    ∃ m', strncat m src n = .ok m' ∧ m'.length = m.length ∧ Holds m' (s ++ t.take n) := by
  have hlen : (t.take n).length = n := by rw [List.length_take, Nat.min_eq_left hn]
  obtain ⟨m', hw, hlen', hm'⟩ := h.writeAt_string
    (fun h0 => hsrc.nulFree (List.mem_of_mem_take h0)) (by rw [hlen]; exact hroom)
  refine ⟨m', ?_, hlen', hm'⟩
  rw [strncat, h.strlen_eq, ok_bind, hsrc.cstrn_eq hn, ok_bind, hw]

/-- Moving the bytes down over the first `i` of them, and a NUL behind them. -/
theorem Terminated.shift (h : Terminated m s) {i : Nat} (hi : i ≤ s.length) :
    ∃ m₁ m₂, copyDown m 0 i (s.length - i) = .ok m₁ ∧
      store m₁ (s.length - i) 0 = .ok m₂ ∧ m₂.length = m.length ∧ Terminated m₂ (s.drop i) := by
  obtain ⟨rest, rfl⟩ := h
  have hcopy := copyDown_append (s.drop i) [] ((s.take i).map some) (some 0 :: rest)
  simp only [List.nil_append, List.length_nil, Nat.zero_add, List.length_map,
    List.length_take, Nat.min_eq_left hi, List.length_drop, ← List.map_append,
    List.take_append_drop, List.append_assoc] at hcopy
  have hlen : (s.drop i).length = s.length - i := List.length_drop ..
  obtain ⟨m₂, hst, hm₂, hends⟩ := store_nul_after (s.drop i)
    (x := (s.map some).drop (s.length - i) ++ some 0 :: rest) (by simp)
  refine ⟨_, m₂, hcopy, by rwa [hlen] at hst, ?_, hends⟩
  rw [hm₂]
  simp only [List.length_append, List.length_drop, List.length_map, List.length_cons]
  omega

/-- Moving the bytes down over the `i`-th one, the NUL included. -/
theorem Terminated.erase (h : Terminated m s) {i : Nat} (hi : i < s.length) :
    ∃ m', copyDown m i (i + 1) (s.length - i) = .ok m' ∧
      m'.length = m.length ∧ Terminated m' (s.eraseIdx i) := by
  obtain ⟨rest, rfl⟩ := h
  have hcopy := copyDown_append (s.drop (i + 1) ++ [0]) ((s.take i).map some) [some s[i]] rest
  have hsplit : (s.take i).map some ++ [some s[i]] ++ (s.drop (i + 1) ++ [0]).map some ++ rest
      = s.map some ++ some 0 :: rest := by
    have hs : s = s.take i ++ s[i] :: s.drop (i + 1) := by
      rw [List.getElem_cons_drop, List.take_append_drop]
    conv_rhs => rw [hs]
    simp only [List.map_append, List.map_cons, List.map_nil, List.append_assoc,
      List.cons_append, List.nil_append]
  have hlen : (s.drop (i + 1) ++ [0]).length = s.length - i := by simp; omega
  rw [hsplit, hlen, List.length_map, List.length_take, Nat.min_eq_left (Nat.le_of_lt hi),
    List.length_singleton] at hcopy
  refine ⟨_, hcopy, ?_, ?_⟩
  · simp only [List.length_append, List.length_map, List.length_take, List.length_drop,
      List.length_cons, List.length_nil]
    omega
  · rw [List.eraseIdx_eq_take_drop_succ]
    exact ⟨_, by simp only [List.map_append, List.append_assoc, List.map_cons, List.map_nil,
      List.cons_append, List.nil_append]; rfl⟩

/-- `strcpy` into a block that is large enough. -/
theorem Holds.strcpy_eq (h : Holds m s) (dst : Cells UInt8) (hroom : s.length < dst.length) :
    ∃ m', strcpy dst 0 m = .ok m' ∧ m'.length = dst.length ∧ Holds m' s ∧
      m' = s.map some ++ some 0 :: dst.drop (s.length + 1) := by
  obtain ⟨a, b, c, d, rfl, ha, hb⟩ := exists_split dst (n := 0) (k := s.length) (by omega)
  obtain rfl := List.length_eq_zero_iff.mp ha
  have hle : s.length + 1 ≤ m.length := h.length_lt
  have hold : (b ++ [c]).length = (s.map some ++ [some 0]).length := by simp [hb]
  have hw := writeAt_append [] d hold
  refine ⟨s.map some ++ some 0 :: d, ?_, by simp [hb], ⟨h.nulFree, d, rfl⟩, ?_⟩
  · rw [strcpy, h.strlen_eq, ok_bind, memcpy_eq_writeAt hle, h.take_succ_eq]
    simpa using hw
  · simp [← hb]

/-- A copy that was made holds the string of its source. -/
theorem holds_of_strcpy {dst src m' : Cells UInt8} (h : strcpy dst 0 src = .ok m') :
    ∃ s, Holds src s ∧ Holds m' s := by
  obtain ⟨n, hn, hcopy⟩ := bind_eq_ok.mp h
  obtain ⟨s, hs, hn⟩ := bind_eq_ok.mp hn
  obtain rfl := Except.ok.inj hn
  have hholds := holds_of_cstr_eq hs
  have hle : s.length + 1 ≤ src.length := hholds.length_lt
  rw [memcpy_eq_writeAt hle, hholds.take_succ_eq] at hcopy
  obtain ⟨-, rfl⟩ := writeAt_eq_ok hcopy
  exact ⟨s, hholds, hholds.nulFree, _, by
    rw [List.take_zero, List.nil_append, List.append_assoc]; rfl⟩

end CString
