/-
# The two forms of the decoder

`decodeURL` writes into a `Buffer` or into an array of the caller, and asks before each append to
the array whether the bytes and a NUL have room.  Both forms follow `decodePart`: the text is decoded
up to its first malformed escape.  The array refuses just when the bytes decoded so far do not leave
room for the NUL; where it does not refuse, the two forms end alike.

The array has no cells behind the length that is passed, so that a write there would be a fault.
-/
import CatraLibraries.WebTools.UrlRoundTrip

namespace CatraLibraries

open Memory CString Percent

namespace WebUtility

namespace Decoded

/-! ### How a step ends -/

/-- Two outputs of one kind and one size. -/
inductive Alike : Decoded → Decoded → Prop
  | buffer (b b' : Buffer) : Alike (.buffer b) (.buffer b')
  | array {m m' : Cells UInt8} (len : Nat) (h : m'.length = m.length) :
      Alike (.array m len) (.array m' len)

/-- A step gets no memory; only a buffer asks for some. -/
def NoMemory {α : Type} : Decoded → Except Fault α → Prop
  | .buffer _, r => r = .error .badAlloc
  | .array _ _, _ => False

/-- The refusal of an array that is too short. -/
def TooShort (out : Decoded) (e : UrlError) : Prop :=
  match out with
  | .buffer _ => False
  | .array _ len => ∃ ulNeeded, e = .bufferTooShort len ulNeeded

/-- A step that is to leave `n` bytes in the output: it ends as `F` says where they have room, and
is refused where they have not. -/
def Ends (out : Decoded) (n : Nat) (F : UrlError → Decoded → Prop)
    (r : Except Fault (UrlError × Decoded)) : Prop :=
  out.NoMemory r ∨ ∃ e out', r = .ok (e, out') ∧ out.Alike out' ∧
    (out.Fits n → F e out') ∧ (¬ out.Fits n → out.TooShort e)

/-- The step has succeeded, and the output holds the string. -/
def Holding (t : List UInt8) (e : UrlError) (out : Decoded) : Prop :=
  e = .errNoError ∧ out.Represents t

variable {out out₁ : Decoded} {t u : List UInt8} {src : Cells UInt8} {n n₁ : Nat}
  {F : UrlError → Decoded → Prop} {r : Except Fault (UrlError × Decoded)}

theorem Alike.refl (out : Decoded) : out.Alike out := by
  cases out with
  | buffer b => exact .buffer b b
  | array m len => exact .array len rfl

theorem Represents.fits (h : out.Represents t) : out.Fits t.length := by
  cases out with
  | buffer b => trivial
  | array m len => exact h.2.1

theorem Alike.fits (h : out.Alike out₁) (n : Nat) : out₁.Fits n ↔ out.Fits n := by
  cases h with
  | buffer b b' => exact Iff.rfl
  | array len h => exact Iff.rfl

theorem Alike.trans {out₂ : Decoded} (h : out.Alike out₁) (h₁ : out₁.Alike out₂) :
    out.Alike out₂ := by
  cases h with
  | buffer b b' =>
    cases h₁ with
    | buffer _ b'' => exact .buffer b b''
  | array len h =>
    cases h₁ with
    | array _ h₁ => exact .array len (h₁.trans h)

theorem Alike.tooShort (h : out.Alike out₁) {e : UrlError} (he : out₁.TooShort e) :
    out.TooShort e := by
  cases h with
  | buffer b b' => exact he
  | array len h => exact he

theorem Alike.noMemory {α : Type} (h : out.Alike out₁) {r : Except Fault α}
    (hr : out₁.NoMemory r) : out.NoMemory r := by
  cases h with
  | buffer b b' => exact hr
  | array len h => exact hr

theorem TooShort.ne {e : UrlError} (h : out.TooShort e) : e ≠ .errNoError := by
  cases out with
  | buffer b => exact absurd h id
  | array m len =>
    obtain ⟨ulNeeded, rfl⟩ := h
    exact nofun

theorem NoMemory.bind {α β : Type} {r : Except Fault α} (h : out.NoMemory r)
    (k : α → Except Fault β) : out.NoMemory (r >>= k) := by
  cases out with
  | buffer b =>
    obtain rfl := h
    exact error_bind _ _
  | array m len => exact absurd h id

/-- The next step, where the first one has succeeded. -/
theorem Ends.bind (h : out.Ends n₁ (Holding t) r) (hle : n₁ ≤ n)
    {k : UrlError × Decoded → Except Fault (UrlError × Decoded)}
    (hk : ∀ out₁, out.Alike out₁ → out₁.Represents t → out₁.Ends n F (k (.errNoError, out₁))) :
    out.Ends n F (r >>= fun x => if x.1 ≠ .errNoError then return (x.1, x.2) else k x) := by
  obtain hbad | ⟨e, out₁, rfl, halike, hfits, hshort⟩ := h
  · exact Or.inl (hbad.bind _)
  rw [ok_bind]
  by_cases hroom : out.Fits n₁
  · obtain ⟨rfl, hrep⟩ := hfits hroom
    rw [if_neg (by simp)]
    obtain hbad | ⟨e, out₂, heq, halike₂, hfits₂, hshort₂⟩ := hk out₁ halike hrep
    · exact Or.inl (halike.noMemory hbad)
    · refine Or.inr ⟨e, out₂, heq, halike.trans halike₂, fun h => hfits₂ ?_, fun h => ?_⟩
      · exact (halike.fits n).mpr h
      · exact halike.tooShort (hshort₂ fun h₁ => h ((halike.fits n).mp h₁))
  · have hrefused := hshort hroom
    rw [if_pos hrefused.ne]
    exact Or.inr ⟨e, out₁, rfl, halike, fun h => absurd (h.mono hle) hroom, fun _ => hrefused⟩

/-! ### The steps -/

/-- What is known of a buffer is known of the form. -/
theorem Leaves.ends {b : Buffer} (h : Leaves (.buffer b) r t) (n : Nat) :
    Ends (.buffer b) n (Holding t) r := by
  obtain hbad | ⟨out', hout', hrep, hfits⟩ := h
  · exact Or.inl hbad
  · cases out' with
    | buffer b' => exact Or.inr ⟨_, _, hout', .buffer b b', fun _ => ⟨rfl, hrep⟩, fun h => h trivial⟩
    | array m len => exact absurd ((hfits len).mpr trivial) (Nat.lt_irrefl len)

end Decoded

/-! ### The loop -/

/-- The two forms of the decoder agree on an array `m` of the caller: it is written within its
cells; where the decoded text and its NUL have room in it, both forms give that text or both reject
the URL, and where they have not it is refused. -/
def Agree (pURL : CStr) (m : Cells UInt8) (b : Buffer) : Prop :=
  ∃ e m', decodeURL (some pURL.cells) (some (.array m m.length))
      = .ok (e, some (.array m' m.length)) ∧ m'.length = m.length ∧
    ((decodePart pURL.bytes).1.length < m.length →
      decodeURL (some pURL.cells) (some (.buffer b)) = .error .badAlloc ∨
      ∃ b', decodeURL (some pURL.cells) (some (.buffer b)) = .ok (e, some (.buffer b')) ∧
        if (decodePart pURL.bytes).2 then
          e = .errNoError ∧ Holds m' ((decodePart pURL.bytes).1.map plusToSpace) ∧
            Buffer.Simulates b' (some ((decodePart pURL.bytes).1.map plusToSpace))
        else e = .wrongFormatForUrlToBeDecoded pURL.bytes) ∧
    (m.length ≤ (decodePart pURL.bytes).1.length →
      ∃ ulNeeded, e = .bufferTooShort m.length ulNeeded)

end WebUtility

end CatraLibraries
