/-
# What substitute replaces, and when the loops end

`Buffer::substitute` on any contents, and the loops of `substitute` and of `strip` by a string on any
argument.  All four loops go on by the length of a string of the caller; the empty string is not
refused, and with it they stand still.
-/
import CatraLibraries.Tools.BufferRun

namespace CatraLibraries

open Memory CString Substring

namespace Buffer

variable {b : Buffer} {s t : List UInt8} {pat : List UInt8}

/-! ### All occurrences -/

/-- A byte that is not in the pattern stays. -/
theorem mem_replaceAll {c : UInt8} (hpat : c ∉ pat) (new : List UInt8) (hc : c ∈ s) :
    c ∈ replaceAll pat new s := by
  induction s using replaceAll.induct pat with
  | case1 s hpre ih =>
    have hsplit := List.prefix_append_drop hpre.2
    rw [hsplit, replaceAll_of_prefix hpre.1]
    rw [hsplit] at hc
    exact List.mem_append_right _ (ih ((List.mem_append.mp hc).resolve_left hpat))
  | case2 => cases hc
  | case3 a s hpre ih =>
    rw [replaceAll, dif_neg hpre]
    rcases List.mem_cons.mp hc with rfl | hc
    · exact List.mem_cons_self
    · exact List.mem_cons_of_mem _ (ih hc)

/-- **What `substitute` should do** on the contents `s`: every leftmost occurrence is replaced, the
length is the one of the string, and no access is outside the storage. -/
structure Substitutes (b : Buffer) (s : List UInt8) (pat new : CStr) : Prop where
  replaced : ∀ e b', b.substitute (some pat.cells) (some new.cells) = .ok (e, b') →
    e = .errNoError ∧ Contents b' (replaceAll pat.bytes new.bytes s) ∧
      strlen b'.pBuffer = .ok b'.ullCharsNumber
  inside : ∀ fault, b.substitute (some pat.cells) (some new.cells) = .error fault → fault = .badAlloc

/-- The length of a string with a zero in it is not the one that is kept. -/
theorem strlen_of_zero (h : Contents b s) (hs : 0 ∈ s) : strlen b.pBuffer ≠ .ok b.ullCharsNumber := by
  rw [h.storage.holds.strlen_eq, h.chars]
  intro hlength
  have hvisible : visible s = s :=
    (visible_isPrefixOf s).eq_of_length (Except.ok.inj hlength)
  rw [← hvisible] at hs
  exact zero_notMem_visible s hs

/-- Where more bytes are added than a `long` counts, the difference overflows. -/
theorem substitute_overflow (h : Contents b s) (hs : 0 ∉ s) (pat new : CStr) (hne : pat.bytes ≠ [])
    (hlong : 2 ^ 63 ≤ countSub pat.bytes s * (new.bytes.length - pat.bytes.length)) :
    b.substitute (some pat.cells) (some new.cells) = .error .undefinedArithmetic := by
  have hcount := countSubstitutions_spec (h.holds hs) pat.nulFree hne (b.pBuffer.length + 1) 0
    (Nat.zero_le _) (by have := (h.holds hs).length_lt; omega)
  rw [List.drop_zero] at hcount
  have hsome : countSub pat.bytes s ≠ 0 := by
    intro hzero
    rw [hzero, Nat.zero_mul] at hlong
    omega
  have hle : pat.bytes.length ≤ new.bytes.length := by
    by_contra hlt
    rw [Nat.sub_eq_zero_of_le (by omega), Nat.mul_zero] at hlong
    omega
  have hproduct : ((new.bytes.length : Int) - pat.bytes.length) * countSub pat.bytes s
      = ((countSub pat.bytes s * (new.bytes.length - pat.bytes.length) : Nat) : Int) := by
    rw [Nat.cast_mul, Nat.cast_sub hle, Int.mul_comm]
  rw [substitute, if_neg (by simp [h.status]), if_neg h.blocks, new.holds.strlen_eq, ok_bind,
    pat.holds.cstr_eq, ok_bind, hcount, ok_bind, if_neg hsome, hproduct, long, if_neg (by omega),
    error_bind]

/-- **`substitute` replaces all occurrences** where the contents have no zero byte, the lengths
survive `unsigned int` and what is added is a `long`; on contents with a zero byte, or where more is
added, it never does. -/
theorem substitutes_of_copiesFit (h : Contents b s) (pat new : CStr) (hne : pat.bytes ≠ []) :
    (0 ∉ s → CopiesFit pat.bytes new.bytes s →
        countSub pat.bytes s * (new.bytes.length - pat.bytes.length) < 2 ^ 63 →
        Substitutes b s pat new) ∧
      (Substitutes b s pat new →
        0 ∉ s ∧ countSub pat.bytes s * (new.bytes.length - pat.bytes.length) < 2 ^ 63 ∨
          b.substitute (some pat.cells) (some new.cells) = .error .badAlloc) := by
  constructor
  · intro hs hfits hlong
    rcases substitute_simulates h hs pat new hne hfits hlong with hbad | ⟨b', hb', hc', hs'⟩
    · refine ⟨fun e b' hok => ?_, fun fault hfault => ?_⟩
      · exact absurd (hbad.symm.trans hok) nofun
      · exact (Except.error.inj (hbad.symm.trans hfault)).symm
    · refine ⟨fun e b'' hok => ?_, fun fault hfault => absurd (hb'.symm.trans hfault) nofun⟩
      obtain ⟨rfl, rfl⟩ := Prod.mk.inj (Except.ok.inj (hb'.symm.trans hok))
      refine ⟨rfl, hc', ?_⟩
      rw [(hc'.holds hs').strlen_eq, hc'.chars]
  · intro hsub
    rcases hrun : b.substitute (some pat.cells) (some new.cells) with fault | ⟨e, b'⟩
    · exact Or.inr (congrArg _ (hsub.inside fault hrun))
    · obtain ⟨-, hc', hlength⟩ := hsub.replaced e b' hrun
      have hs : 0 ∉ s := fun hs =>
        strlen_of_zero hc' (mem_replaceAll pat.nulFree new.bytes hs) hlength
      refine Or.inl ⟨hs, ?_⟩
      by_contra hlong
      exact absurd (hrun.symm.trans (substitute_overflow h hs pat new hne (Nat.not_lt.mp hlong))) nofun

theorem substitutes_of_copiesFit_holdingA :
    (0 ∉ [(97 : UInt8)] → CopiesFit textB.bytes textAB.bytes [97] →
        countSub textB.bytes [97] * (textAB.bytes.length - textB.bytes.length) < 2 ^ 63 →
        Substitutes holdingA [97] textB textAB) ∧
      (Substitutes holdingA [97] textB textAB →
        0 ∉ [(97 : UInt8)] ∧
            countSub textB.bytes [97] * (textAB.bytes.length - textB.bytes.length) < 2 ^ 63 ∨
          holdingA.substitute (some textB.cells) (some textAB.cells) = .error .badAlloc) :=
  substitutes_of_copiesFit holdingA_contents textB textAB (by decide)

/-- The buffer with a zero byte and "b". -/
def holdingZero : Buffer := ⟨.initialized, true, 2, 2, 2, [some 0, some 98, some 0, none]⟩

theorem holdingZero_contents : Contents holdingZero [0, 98] :=
  ⟨rfl, rfl, by decide, by decide, rfl, by decide, rfl, [none], rfl⟩

/-- Nothing is replaced behind a zero byte; and on a string without one, a new string of 2³² bytes is
not copied. -/
theorem not_substitutes_holdingZero : Contents holdingZero [0, 98] ∧
    ¬Substitutes holdingZero [0, 98] textB textAB ∧
    ∃ a new : CStr, a.bytes ≠ [] ∧ ¬Substitutes holdingA [97] a new := by
  refine ⟨holdingZero_contents, fun h => ?_, ?_⟩
  · have hrun : holdingZero.substitute (some textB.cells) (some textAB.cells)
        = .ok (.errNoError, holdingZero) := by decide +kernel
    obtain ⟨-, -, hlength⟩ := h.replaced _ _ hrun
    exact strlen_of_zero holdingZero_contents (by decide) hlength
  · obtain ⟨new, hnew⟩ : ∃ new : CStr, new.bytes.length = 2 ^ 32 :=
      ⟨⟨List.replicate (2 ^ 32) 120, fun h0 => absurd (List.eq_of_mem_replicate h0) (by decide)⟩,
        List.length_replicate⟩
    refine ⟨⟨[97], by decide⟩, new, by decide, fun h => ?_⟩
    obtain ⟨b', hrun, hholds, hchars⟩ := substitute_narrowed ⟨[97], by decide⟩ new rfl hnew
    obtain ⟨-, -, hlength⟩ := h.replaced _ _ hrun
    rw [hholds.strlen_eq, hchars] at hlength
    exact absurd (Except.ok.inj hlength) (by decide)

/-! ### Loops that end -/

/-- A loop ends when some number of rounds is enough for it. -/
def Ends {α : Type} (loop : Nat → Except Fault α) : Prop := ∃ fuel, loop fuel ≠ .error .outOfFuel

/-- No round of a loop is left out. -/
def Counted {α : Type} (x : Except Fault α) : Prop := x ≠ .error .outOfFuel

theorem Counted.bind {α β : Type} {x : Except Fault α} {f : α → Except Fault β} (hx : Counted x)
    (hf : ∀ a, x = .ok a → Counted (f a)) : Counted (x >>= f) := by
  rcases hres : x with fault | a
  · rw [hres] at hx
    rw [error_bind]
    exact fun h => hx (congrArg _ (Except.error.inj h))
  · rw [ok_bind]
    exact hf a hres

theorem counted_ok {α : Type} (a : α) : Counted (.ok a : Except Fault α) := nofun

theorem counted_error {α : Type} {fault : Fault} (h : fault ≠ .outOfFuel) :
    Counted (.error fault : Except Fault α) :=
  fun hfault => h (Except.error.inj hfault)

theorem counted_strncmp (m : Cells UInt8) (pat : List UInt8) : Counted (strncmp m pat) := by
  induction pat generalizing m with
  | nil => cases m <;> exact counted_ok true
  | cons p pat ih =>
    rcases m with _ | ⟨_ | c, m⟩
    · exact nofun
    · exact nofun
    · unfold strncmp
      split
      · exact ih m
      · exact counted_ok false

theorem counted_strstr (m : Cells UInt8) (pat : List UInt8) : Counted (strstr m pat) := by
  induction m with
  | nil =>
    unfold strstr
    split
    · exact counted_ok _
    · exact counted_error (by decide)
  | cons cell m ih =>
    unfold strstr
    refine (counted_strncmp (cell :: m) pat).bind fun found _ => ?_
    cases found with
    | true => exact counted_ok _
    | false =>
      rcases cell with _ | c
      · exact counted_error (by decide)
      · show Counted (if c = 0 then pure none else strstr m pat >>= fun i => pure (i.map (· + 1)))
        split
        · exact counted_ok _
        · exact ih.bind fun _ _ => counted_ok _

theorem counted_cstr (m : Cells UInt8) : Counted (cstr m) := by
  induction m with
  | nil => exact nofun
  | cons cell m ih =>
    rcases cell with _ | c
    · exact nofun
    · unfold cstr
      split
      · exact counted_ok _
      · exact ih.bind fun _ _ => counted_ok _

theorem counted_strncpyCells (m : Cells UInt8) (n : Nat) : Counted (strncpyCells m n) := by
  induction n generalizing m with
  | zero => cases m <;> exact nofun
  | succ n ih =>
    rcases m with _ | ⟨_ | c, m⟩
    · exact nofun
    · exact nofun
    · unfold strncpyCells
      split
      · exact counted_ok _
      · exact (ih m).bind fun _ _ => counted_ok _

theorem counted_writeAt (m : Cells UInt8) (i : Nat) (new : Cells UInt8) : Counted (writeAt m i new) := by
  unfold writeAt
  split
  · exact counted_ok _
  · exact nofun

theorem counted_strncpy (dst : Cells UInt8) (i : Nat) (src : Cells UInt8) (n : Nat) :
    Counted (strncpy dst i src n) :=
  (counted_strncpyCells src n).bind fun _ _ => counted_writeAt dst i _

theorem counted_store (m : Cells UInt8) (i : Nat) (c : UInt8) : Counted (store m i c) := by
  unfold store
  split
  · exact counted_ok _
  · exact nofun

theorem counted_substituteAt (mem : Cells UInt8) (pat : List UInt8) (new : CStr) (same : Bool)
    (next : Nat) : Counted (substituteAt mem pat new.cells new.bytes.length same next) := by
  unfold substituteAt
  split
  · exact counted_strncpy _ _ _ _
  · refine (counted_cstr _).bind fun _ _ => ?_
    refine (counted_strncpy _ _ _ _).bind fun _ _ => ?_
    exact (counted_store _ _ _).bind fun _ _ => counted_strncpy _ _ _ _

/-! ### The second loop of `substitute` -/

theorem length_writeAt {m m' new : Cells UInt8} {i : Nat} (h : writeAt m i new = .ok m') :
    m'.length = m.length := by
  obtain ⟨hle, rfl⟩ := writeAt_eq_ok h
  rw [List.length_append, List.length_append, List.length_take, List.length_drop]
  omega

theorem length_strncpy {dst src m' : Cells UInt8} {i n : Nat} (h : strncpy dst i src n = .ok m') :
    m'.length = dst.length := by
  obtain ⟨_, -, hwrite⟩ := bind_eq_ok.mp h
  exact length_writeAt hwrite

theorem store_eq_ok {m m' : Cells UInt8} {i : Nat} {c : UInt8} (h : store m i c = .ok m') :
    i < m.length ∧ m' = m.set i (some c) := by
  unfold store at h
  split at h
  · next hlt => exact ⟨hlt, (Except.ok.inj h).symm⟩
  · cases h

theorem length_substituteAt {mem m' : Cells UInt8} {new : CStr} {same : Bool} {next : Nat}
    (h : substituteAt mem pat new.cells new.bytes.length same next = .ok m') :
    m'.length = mem.length := by
  unfold substituteAt at h
  split at h
  · exact length_strncpy h
  · obtain ⟨_, -, h⟩ := bind_eq_ok.mp h
    obtain ⟨m₁, h₁, h⟩ := bind_eq_ok.mp h
    obtain ⟨m₂, h₂, h₃⟩ := bind_eq_ok.mp h
    obtain ⟨-, rfl⟩ := store_eq_ok h₂
    rw [length_strncpy h₃, List.length_set, length_strncpy h₁]

/-- A new string that is not empty: the place goes on. -/
theorem substituteLoop_forward {new : CStr} (hnew : new.bytes ≠ []) (hne : pat ≠ []) (same : Bool)
    (fuel : Nat) (mem : Cells UInt8) (pos : Nat) (h : mem.length - pos < fuel) :
    Counted (substituteLoop pat new.cells new.bytes.length same fuel mem pos) := by
  have hpos : 0 < new.bytes.length := List.length_pos_iff.mpr hnew
  induction fuel generalizing mem pos with
  | zero => omega
  | succ fuel ih =>
    unfold substituteLoop
    by_cases hend : mem.length ≤ pos
    · rw [List.drop_eq_nil_of_le hend, strstr, if_neg hne]
      exact counted_error (by decide)
    · refine (counted_strstr _ _).bind fun found _ => ?_
      cases found with
      | none => exact counted_ok _
      | some i =>
        refine (counted_substituteAt _ _ _ _ _).bind fun m' hm' => ?_
        refine ih m' _ ?_
        rw [length_substituteAt hm']
        omega

/-- A match ends before every NUL. -/
theorem strncmp_before (hpat : 0 ∉ pat) {m : Cells UInt8} (h : strncmp m pat = .ok true) {k : Nat}
    (hk : m[k]? = some (some 0)) : pat.length ≤ k := by
  induction pat generalizing m k with
  | nil => exact Nat.zero_le k
  | cons p pat ih =>
    rcases m with _ | ⟨_ | c, m⟩
    · cases hk
    · cases h
    · unfold strncmp at h
      split at h
      · next hcp =>
        cases k with
        | zero =>
          rw [List.getElem?_cons_zero] at hk
          obtain rfl : c = 0 := Option.some.inj (Option.some.inj hk)
          exact absurd (List.mem_cons.mpr (Or.inl hcp)) hpat
        | succ k =>
          rw [List.getElem?_cons_succ] at hk
          exact Nat.succ_le_succ (ih (fun h0 => hpat (List.mem_cons_of_mem p h0)) h hk)
      · cases h

theorem strstr_before (hpat : 0 ∉ pat) {m : Cells UInt8} {i : Nat}
    (h : strstr m pat = .ok (some i)) {k : Nat} (hk : m[k]? = some (some 0)) : i + pat.length ≤ k := by
  induction m generalizing i k with
  | nil => cases hk
  | cons cell m ih =>
    unfold strstr at h
    obtain ⟨found, hcmp, h⟩ := bind_eq_ok.mp h
    cases found with
    | true =>
      obtain rfl : 0 = i := Option.some.inj (Except.ok.inj h)
      rw [Nat.zero_add]
      exact strncmp_before hpat hcmp hk
    | false =>
      rcases cell with _ | c
      · cases h
      · change (if c = 0 then pure none else strstr m pat >>= fun i => pure (i.map (· + 1))) = _ at h
        split at h
        · cases h
        · next hc =>
          obtain ⟨found, hfind, h⟩ := bind_eq_ok.mp h
          rcases found with _ | j
          · cases h
          · obtain rfl : j + 1 = i := Option.some.inj (Except.ok.inj h)
            cases k with
            | zero =>
              rw [List.getElem?_cons_zero] at hk
              exact absurd (Option.some.inj (Option.some.inj hk)) hc
            | succ k =>
              rw [List.getElem?_cons_succ] at hk
              have := ih hfind hk
              omega

/-- A string ends at the first NUL. -/
theorem length_le_of_nul {m : Cells UInt8} (h : Holds m t) {k : Nat} (hk : m[k]? = some (some 0)) :
    t.length ≤ k := by
  obtain ⟨rest, rfl⟩ := h.split
  exact length_le_of_zero h.nulFree hk

/-- An occurrence that is taken out: a NUL stands behind the rest, however much of it was copied. -/
theorem substituteAt_removed {mem m' : Cells UInt8} {new : CStr} (hnew : new.bytes = []) {next : Nat}
    (h : substituteAt mem pat new.cells new.bytes.length false next = .ok m') :
    ∃ tail, Holds (mem.drop (next + pat.length)) tail ∧
      (m'.drop next)[tail.length]? = some (some 0) := by
  unfold substituteAt at h
  rw [if_neg nofun] at h
  obtain ⟨tail, htail, h⟩ := bind_eq_ok.mp h
  obtain ⟨m₁, -, h⟩ := bind_eq_ok.mp h
  obtain ⟨m₂, h₂, h₃⟩ := bind_eq_ok.mp h
  obtain ⟨hlt, rfl⟩ := store_eq_ok h₂
  rw [hnew, List.length_nil, Nat.add_zero] at hlt h₃
  obtain ⟨cells, hcells, hwrite⟩ := bind_eq_ok.mp h₃
  have hnil : cells = [] := by
    have hzero : unsignedInt 0 = 0 := rfl
    rw [hzero, strncpyCells] at hcells
    exact (Except.ok.inj hcells).symm
  rw [hnil] at hwrite
  have hnext : next ≤ (m₁.set (next + tail.length) (some 0)).length := by
    rw [List.length_set]
    omega
  rw [writeAt_nil hnext] at hwrite
  obtain rfl := Except.ok.inj hwrite
  refine ⟨tail, holds_of_cstr_eq htail, ?_⟩
  rw [List.getElem?_drop, List.getElem?_set_self hlt]

/-- An empty new string: the place stays, and the NUL comes nearer. -/
theorem substituteLoop_shrinking {new : CStr} (hnew : new.bytes = []) (hpat : 0 ∉ pat) (hne : pat ≠ [])
    (fuel : Nat) (mem : Cells UInt8) (pos k : Nat) (hk : (mem.drop pos)[k]? = some (some 0))
    (hfuel : k < fuel) :
    Counted (substituteLoop pat new.cells new.bytes.length false fuel mem pos) := by
  have hpos : 0 < pat.length := List.length_pos_iff.mpr hne
  induction fuel generalizing mem pos k with
  | zero => omega
  | succ fuel ih =>
    unfold substituteLoop
    refine (counted_strstr _ _).bind fun found hfound => ?_
    cases found with
    | none => exact counted_ok _
    | some i =>
      refine (counted_substituteAt _ _ _ _ _).bind fun m' hm' => ?_
      obtain ⟨tail, htail, hnul⟩ := substituteAt_removed hnew hm'
      have hbefore := strstr_before hpat hfound hk
      -- the old NUL ends the rest at the latest
      have hold : (mem.drop (pos + i + pat.length))[k - i - pat.length]? = some (some 0) := by
        rw [List.getElem?_drop] at hk ⊢
        rw [← hk]
        congr 1
        omega
      have hle := length_le_of_nul htail hold
      rw [hnew, List.length_nil, Nat.add_zero]
      rw [hnew, List.length_nil] at ih
      exact ih m' (pos + i) tail.length hnul (by omega)

/-- **The second loop ends**, whatever the storage holds. -/
theorem substituteLoop_ends {new : CStr} (hpat : 0 ∉ pat) (hne : pat ≠ []) (mem : Cells UInt8)
    (pos : Nat) :
    Ends fun fuel => substituteLoop pat new.cells new.bytes.length
      (decide (new.bytes.length = pat.length)) fuel mem pos := by
  by_cases hnew : new.bytes = []
  · have hsame : decide (new.bytes.length = pat.length) = false := by
      rw [hnew, decide_eq_false_iff_not]
      exact fun h => hne (List.length_eq_zero_iff.mp h.symm)
    rw [hsame]
    -- one round leaves a NUL
    rcases hfound : strstr (mem.drop pos) pat with fault | found
    · refine ⟨1, ?_⟩
      show Counted (strstr (mem.drop pos) pat >>= _)
      exact (counted_strstr _ _).bind fun a ha => absurd (hfound.symm.trans ha) nofun
    · cases found with
      | none =>
        refine ⟨1, ?_⟩
        show Counted (strstr (mem.drop pos) pat >>= _)
        rw [hfound]
        exact counted_ok _
      | some i =>
        rcases hat : substituteAt mem pat new.cells new.bytes.length false (pos + i) with fault | m'
        · refine ⟨1, ?_⟩
          show Counted (strstr (mem.drop pos) pat >>= _)
          rw [hfound]
          exact (counted_substituteAt _ _ _ _ _).bind fun a ha => absurd (hat.symm.trans ha) nofun
        · obtain ⟨tail, -, hnul⟩ := substituteAt_removed hnew hat
          refine ⟨tail.length + 1 + 1, ?_⟩
          show Counted (strstr (mem.drop pos) pat >>= _)
          rw [hfound, ok_bind]
          show Counted (substituteAt mem pat new.cells new.bytes.length false (pos + i) >>= _)
          rw [hat, ok_bind]
          rw [hnew, List.length_nil, Nat.add_zero]
          have hrest := substituteLoop_shrinking hnew hpat hne (tail.length + 1) m' (pos + i) tail.length
            hnul (Nat.lt_succ_self _)
          rwa [hnew, List.length_nil] at hrest
  · exact ⟨_, substituteLoop_forward hnew hne _ _ mem pos (Nat.lt_succ_self _)⟩

/-! ### The four loops -/

/-- **The loops of `substitute` end**: the one that counts, and the one that replaces in the storage,
which may have grown. -/
def SubstituteEnds (b : Buffer) (pat new : CStr) : Prop :=
  Ends (fun fuel => countSubstitutions b.pBuffer pat.bytes fuel 0) ∧
    ∀ b', (b' = b ∨ ∃ n, b.allocMemoryBlockForBufferIfNecessary n = .ok b') →
      Ends fun fuel => substituteLoop pat.bytes new.cells new.bytes.length
        (decide (new.bytes.length = pat.bytes.length)) fuel b'.pBuffer 0

/-- **The loops of `strip` end**: the leading one, and the trailing one on what it leaves. -/
def StripEnds (b : Buffer) (pat : CStr) (ty : StripType) : Prop :=
  (ty ≠ .trailing → Ends fun fuel => stripLeadingLoop b.pBuffer pat.bytes b.length fuel 0) ∧
    (ty ≠ .leading → ∀ b', (if ty = .both then b.stripLeadingString pat.bytes = .ok b' else b' = b) →
      Ends fun fuel => stripTrailingLoop b'.pBuffer pat.bytes fuel ((b'.length : Int) - pat.bytes.length))

theorem strncmp_nil (m : Cells UInt8) : strncmp m [] = .ok true := by
  cases m <;> rfl

theorem countSubstitutions_nil (m : Cells UInt8) (pos fuel : Nat) :
    countSubstitutions m [] fuel pos = .error .outOfFuel := by
  induction fuel generalizing pos with
  | zero => rfl
  | succ fuel ih =>
    have hfound : strstr (m.drop pos) [] = .ok (some 0) := by
      cases m.drop pos with
      | nil => rfl
      | cons cell m =>
        unfold strstr
        rw [strncmp_nil]
        rfl
    rw [countSubstitutions, hfound, ok_bind]
    show (countSubstitutions m [] fuel (pos + 0 + 0) >>= fun n => pure (n + 1)) = _
    rw [ih, error_bind]

theorem stripLeadingLoop_nil (m : Cells UInt8) {n i : Nat} (hi : i < n) (fuel : Nat) :
    stripLeadingLoop m [] n fuel i = .error .outOfFuel := by
  induction fuel with
  | zero => rfl
  | succ fuel ih =>
    have hlength : ¬n - i < ([] : List UInt8).length := Nat.not_lt_zero _
    rw [stripLeadingLoop, if_pos hi, if_neg hlength, strncmp_nil, ok_bind, if_pos rfl]
    exact ih

theorem stripTrailingLoop_nil (m : Cells UInt8) {i : Int} (hi : 0 ≤ i) (fuel : Nat) :
    stripTrailingLoop m [] fuel i = .error .outOfFuel := by
  induction fuel with
  | zero => rfl
  | succ fuel ih =>
    rw [stripTrailingLoop, if_pos hi, strncmp_nil, ok_bind, if_pos rfl]
    show stripTrailingLoop m [] fuel (i - 0) = _
    rw [Int.sub_zero]
    exact ih

theorem substituteEnds_iff (h : Contents b s) (pat new : CStr) :
    SubstituteEnds b pat new ↔ pat.bytes ≠ [] := by
  constructor
  · rintro ⟨⟨fuel, hfuel⟩, -⟩ hnil
    rw [hnil] at hfuel
    exact hfuel (countSubstitutions_nil b.pBuffer 0 fuel)
  · intro hne
    refine ⟨⟨(visible s).length + 1, ?_⟩, fun b' _ => substituteLoop_ends pat.nulFree hne b'.pBuffer 0⟩
    show Counted (countSubstitutions b.pBuffer pat.bytes ((visible s).length + 1) 0)
    rw [countSubstitutions_spec h.storage.holds pat.nulFree hne ((visible s).length + 1) 0 (Nat.zero_le _)
      (Nat.lt_succ_self _)]
    exact counted_ok _

theorem stripEnds_iff (h : Contents b s) (pat : CStr) (ty : StripType) :
    StripEnds b pat ty ↔ pat.bytes ≠ [] ∨ ty = .leading ∧ s = [] := by
  by_cases hne : pat.bytes = []
  · have hleading : Ends (fun fuel => stripLeadingLoop b.pBuffer [] b.length fuel 0) ↔ s = [] := by
      rw [h.length_eq_chars]
      constructor
      · rintro ⟨fuel, hfuel⟩
        by_contra hs
        exact hfuel (stripLeadingLoop_nil _ (List.length_pos_iff.mpr hs) fuel)
      · rintro rfl
        exact ⟨1, counted_ok 0⟩
    have htrailing : ¬Ends fun fuel => stripTrailingLoop b.pBuffer [] fuel
        ((b.length : Int) - ([] : List UInt8).length) := by
      rintro ⟨fuel, hfuel⟩
      exact hfuel (stripTrailingLoop_nil _ (by rw [List.length_nil]; omega) fuel)
    unfold StripEnds
    rw [hne]
    constructor
    · rintro ⟨hfirst, hsecond⟩
      cases ty with
      | leading => exact Or.inr ⟨rfl, hleading.mp (hfirst nofun)⟩
      | trailing => exact absurd (hsecond nofun b rfl) htrailing
      | both =>
        have hs := hleading.mp (hfirst nofun)
        subst hs
        refine absurd (hsecond nofun b ?_) htrailing
        rw [if_pos rfl, stripLeadingString, h.length_eq_chars]
        rfl
    · rintro (hnil | ⟨rfl, hs⟩)
      · exact absurd rfl hnil
      · exact ⟨fun _ => hleading.mpr hs, fun hty => absurd rfl hty⟩
  · refine iff_of_true ⟨fun _ => ?_, fun _ b' hb' => ?_⟩ (Or.inl hne)
    · obtain ⟨j, hj, -⟩ := stripLeadingLoop_spec h.split pat.nulFree hne (s.length + 1) 0 (Nat.zero_le _)
        (Nat.lt_succ_self _)
      refine ⟨s.length + 1, ?_⟩
      show Counted (stripLeadingLoop b.pBuffer pat.bytes b.length (s.length + 1) 0)
      rw [h.length_eq_chars, hj]
      exact counted_ok j
    · obtain ⟨t, ht⟩ : ∃ t, Contents b' t := by
        by_cases hty : ty = .both
        · rw [if_pos hty] at hb'
          obtain ⟨b₁, hb₁, hc₁⟩ := stripLeadingString_spec h pat.nulFree hne
          obtain rfl := Except.ok.inj (hb₁.symm.trans hb')
          exact ⟨_, hc₁⟩
        · rw [if_neg hty] at hb'
          exact ⟨s, hb' ▸ h⟩
      obtain ⟨k, hk, -⟩ := stripTrailingLoop_spec ht.split pat.nulFree hne (t.length + 1) t.length
        (le_refl _) (Nat.lt_succ_self _)
      refine ⟨t.length + 1, ?_⟩
      show Counted (stripTrailingLoop b'.pBuffer pat.bytes (t.length + 1)
        ((b'.length : Int) - pat.bytes.length))
      rw [ht.length_eq_chars, hk]
      exact counted_ok _

/-- **Where the loops end**: always, but for the empty string; with that one, only the leading `strip` of
an empty buffer does. -/
theorem loops_end_iff (h : Contents b s) (pat new : CStr) (ty : StripType) :
    (SubstituteEnds b pat new ↔ pat.bytes ≠ []) ∧
      (StripEnds b pat ty ↔ pat.bytes ≠ [] ∨ ty = .leading ∧ s = []) :=
  ⟨substituteEnds_iff h pat new, stripEnds_iff h pat ty⟩

theorem loops_end_iff_holdingA :
    (SubstituteEnds holdingA textB textAB ↔ textB.bytes ≠ []) ∧
      (StripEnds holdingA textB .both ↔ textB.bytes ≠ [] ∨ StripType.both = .leading ∧ [(97 : UInt8)] = []) :=
  loops_end_iff holdingA_contents textB textAB .both

/-- The empty string keeps both calls from ending. -/
theorem not_loops_end_empty : Contents holdingA [97] ∧
    ¬SubstituteEnds holdingA ⟨[], by decide⟩ textB ∧ ¬StripEnds holdingA ⟨[], by decide⟩ .leading := by
  refine ⟨holdingA_contents, ?_, ?_⟩
  · rintro ⟨⟨fuel, hfuel⟩, -⟩
    exact hfuel (countSubstitutions_nil holdingA.pBuffer 0 fuel)
  · rintro ⟨hends, -⟩
    obtain ⟨fuel, hfuel⟩ := hends nofun
    exact hfuel (stripLeadingLoop_nil holdingA.pBuffer (by decide) fuel)

end Buffer

end CatraLibraries
