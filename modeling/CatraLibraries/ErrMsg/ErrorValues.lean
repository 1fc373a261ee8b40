/-
# Errors as values

An `Error` should behave as a plain value: it shows what was last given to it, and what is freed are
blocks of its own.  So it does, but for two assignments.  One of an object to itself deletes what it
is about to copy.  One of user data without an error, to an object that was made from an error class,
looks at members that the constructor left uninitialised, and may take them for user data to delete.
The values are plain exactly in the runs without these (`plain_run_iff`).
-/
import CatraLibraries.Lib.Transition
import CatraLibraries.ErrMsg.Error

namespace CatraLibraries

open Transition OwnedBlocks

namespace ErrMsg

variable {h h' : Heap} {x y : ℕ}

/-! ### User data -/

theorem Heap.touches_delete (h : Heap) (owner : ℕ) (p : Pointer) :
    Touches owner h (Heap.delete h owner p) := by
  cases p with
  | null => exact Touches.refl owner h
  | block n => exact touches_free h owner n
  | preAllocated => exact Touches.fault owner h
  | uninitialised => exact Touches.fault owner h

namespace UserData

variable {u : UserData} {data : List UInt8}

/-- The data are in the array of the object, or in a block of its own. -/
inductive Holds (h : Heap) (owner : ℕ) : UserData → List UInt8 → Prop
  | nothing (written : List UInt8) : Holds h owner ⟨written, .null, 0⟩ []
  | inArray (data rest : List UInt8) (hshort : data.length ≤ preAllocatedUserDataBytes) :
    Holds h owner ⟨data ++ rest, .preAllocated, data.length⟩ data
  | inBlock (written : List UInt8) {n : ℕ} {data : List UInt8}
      (hlong : preAllocatedUserDataBytes < data.length)
      (hblock : h.block n = some (owner, data)) :
    Holds h owner ⟨written, .block n, data.length⟩ data

theorem Holds.get (hu : Holds h x u data) : u.get h = some data := by
  unfold UserData.get
  cases hu with
  | nothing written => rfl
  | inArray data rest hshort =>
    by_cases hlength : data.length = 0
    · rw [if_pos hlength, List.length_eq_zero_iff.mp hlength]
    · rw [if_neg hlength]
      exact congrArg some List.take_left
  | inBlock written hlong hblock =>
    rw [if_neg (Nat.ne_of_gt (Nat.zero_lt_of_lt hlong))]
    show (h.block _).map _ = _
    rw [hblock]
    exact congrArg some List.take_length

/-- What others do to the heap does not change the data. -/
theorem Holds.frame {o : ℕ} (hu : Holds h x u data) (ht : Touches o h h') (ho : x ≠ o) :
    Holds h' x u data := by
  cases hu with
  | nothing written => exact Holds.nothing written
  | inArray data rest hshort => exact Holds.inArray data rest hshort
  | inBlock written hlong hblock => exact Holds.inBlock written hlong (ht.others _ _ _ ho hblock)

/-- Data that may be deleted. -/
def Releasable (h : Heap) (owner : ℕ) (u : UserData) : Prop :=
  u.ulUserDataBytes ≤ preAllocatedUserDataBytes ∨ u.pucUserData = .null ∨
    ∃ n b, u.pucUserData = .block n ∧ h.block n = some (owner, b)

theorem Holds.releasable (hu : Holds h x u data) : u.Releasable h x := by
  cases hu with
  | nothing written => exact .inr (.inl rfl)
  | inArray data rest hshort => exact .inl hshort
  | inBlock written hlong hblock => exact .inr (.inr ⟨_, _, rfl, hblock⟩)

theorem release_of_le (h : Heap) (owner : ℕ)
    (hu : u.ulUserDataBytes ≤ preAllocatedUserDataBytes) : u.release h owner = (h, u) := by
  unfold release
  rw [if_neg fun hlong => absurd hlong.2 (Nat.not_lt.mpr hu)]

theorem release_of_lt (h : Heap) (owner : ℕ)
    (hu : preAllocatedUserDataBytes < u.ulUserDataBytes) : u.release h owner =
      (Heap.delete h owner u.pucUserData, { u with pucUserData := .null, ulUserDataBytes := 0 }) := by
  unfold release
  rw [if_pos ⟨Nat.zero_lt_of_lt hu, hu⟩]

theorem touches_release (h : Heap) (owner : ℕ) (u : UserData) :
    Touches owner h (u.release h owner).1 := by
  rcases Nat.lt_or_ge preAllocatedUserDataBytes u.ulUserDataBytes with hlong | hshort
  · rw [release_of_lt h owner hlong]
    exact Heap.touches_delete h owner _
  · rw [release_of_le h owner hshort]
    exact Touches.refl owner h

theorem Releasable.sound (hr : u.Releasable h x) : (u.release h x).1.sound = h.sound := by
  rcases Nat.lt_or_ge preAllocatedUserDataBytes u.ulUserDataBytes with hlong | hshort
  · rw [release_of_lt h x hlong]
    rcases hr.resolve_left (Nat.not_le.mpr hlong) with hnull | ⟨n, b, hn, hblock⟩
    · rw [hnull]
      rfl
    · rw [hn]
      show (OwnedBlocks.free h x n).sound = h.sound
      rw [free_of_block hblock]
  · rw [release_of_le h x hshort]

/-- Data of which the pointer was never set are deleted. -/
theorem release_uninitialised (hlong : preAllocatedUserDataBytes < u.ulUserDataBytes)
    (hnull : u.pucUserData ≠ .null) (hblock : ∀ n, u.pucUserData ≠ .block n) (h : Heap) :
    (u.release h x).1.sound = false := by
  rw [release_of_lt h x hlong]
  cases hp : u.pucUserData with
  | null => exact absurd hp hnull
  | block n => exact absurd hp (hblock n)
  | preAllocated => rfl
  | uninitialised => rfl

/-- A block that is not that of the data stays. -/
theorem block_release {n : ℕ} (hn : u.pucUserData ≠ .block n) (h : Heap) (owner : ℕ) :
    (u.release h owner).1.block n = h.block n := by
  rcases Nat.lt_or_ge preAllocatedUserDataBytes u.ulUserDataBytes with hlong | hshort
  · rw [release_of_lt h owner hlong]
    cases hp : u.pucUserData with
    | null => rfl
    | preAllocated => rfl
    | uninitialised => rfl
    | block m =>
      have hne : n ≠ m := fun heq => hn (heq ▸ hp)
      show (OwnedBlocks.free h owner m).block n = h.block n
      unfold OwnedBlocks.free
      split
      · exact Function.update_of_ne hne _ _
      · rfl
  · rw [release_of_le h owner hshort]

theorem set_of_le (h : Heap) (owner : ℕ) (u : UserData)
    (hdata : data.length ≤ preAllocatedUserDataBytes) : u.set h owner data =
      ((u.release h owner).1, ⟨data ++ (u.release h owner).2.pucPreAllocatedUserData.drop data.length,
        .preAllocated, data.length⟩) := by
  unfold set
  rw [if_pos hdata]

theorem set_of_lt (h : Heap) (owner : ℕ) (u : UserData)
    (hdata : preAllocatedUserDataBytes < data.length) : u.set h owner data =
      ((u.release (h.allocate owner data) owner).1,
        ⟨(u.release (h.allocate owner data) owner).2.pucPreAllocatedUserData, .block h.next,
          data.length⟩) := by
  unfold set
  rw [if_neg (Nat.not_le.mpr hdata)]

theorem touches_set (hf : h.Fresh) (owner : ℕ) (u : UserData) (data : List UInt8) :
    Touches owner h (u.set h owner data).1 := by
  rcases Nat.lt_or_ge preAllocatedUserDataBytes data.length with hlong | hshort
  · rw [set_of_lt h owner u hlong]
    exact (hf.touches_allocate owner data).trans (touches_release _ owner u)
  · rw [set_of_le h owner u hshort]
    exact touches_release h owner u

/-- **`setUserData`** leaves the new data in the place of old ones that may be deleted. -/
theorem set_holds (hf : h.Fresh) (hr : u.Releasable h x) (data : List UInt8) :
    (u.set h x data).1.sound = h.sound ∧ Holds (u.set h x data).1 x (u.set h x data).2 data := by
  rcases Nat.lt_or_ge preAllocatedUserDataBytes data.length with hlong | hshort
  · rw [set_of_lt h x u hlong]
    have hr' : u.Releasable (h.allocate x data) x := by
      rcases hr with hle | hnull | ⟨n, b, hn, hblock⟩
      · exact .inl hle
      · exact .inr (.inl hnull)
      · exact .inr (.inr ⟨n, b, hn, (hf.block_allocate hblock x data).2⟩)
    -- the old block is not the new one
    have hnew : (u.release (h.allocate x data) x).1.block h.next = some (x, data) := by
      rcases hr with hle | hnull | ⟨n, b, hn, hblock⟩
      · rw [release_of_le _ x hle]
        exact block_allocate_self h x data
      · rw [block_release (by rw [hnull]; exact Pointer.noConfusion)]
        exact block_allocate_self h x data
      · rw [block_release fun heq => (hf.block_allocate hblock x data).1
          (Pointer.block.inj (hn.symm.trans heq))]
        exact block_allocate_self h x data
    exact ⟨hr'.sound, Holds.inBlock _ hlong hnew⟩
  · rw [set_of_le h x u hshort]
    exact ⟨hr.sound, Holds.inArray data _ hshort⟩

/-- `setUserData` deletes data of which the pointer was never set. -/
theorem set_uninitialised (hlong : preAllocatedUserDataBytes < u.ulUserDataBytes)
    (hnull : u.pucUserData ≠ .null) (hblock : ∀ n, u.pucUserData ≠ .block n) (h : Heap)
    (data : List UInt8) : (u.set h x data).1.sound = false := by
  unfold set
  split
  · exact release_uninitialised hlong hnull hblock h
  · exact release_uninitialised hlong hnull hblock (h.allocate x data)

end UserData

open UserData

/-- **`duplicate`** gives an object with the same data. -/
theorem CustomError.duplicate_holds (hf : h.Fresh) (owner : ℕ) (e : CustomError) :
    Touches owner h (e.duplicate h owner).1 ∧ (e.duplicate h owner).1.sound = h.sound ∧
      ∃ u, (e.duplicate h owner).2 = ⟨e.className, e.lErrMsgIdentifier, e.pErrMsg, u⟩ ∧
        Holds (e.duplicate h owner).1 owner u e.userData := by
  unfold duplicate
  by_cases hdata : e.userData = []
  · rw [if_pos hdata, hdata]
    exact ⟨Touches.refl owner h, rfl, .empty, rfl, Holds.nothing []⟩
  · rw [if_neg hdata]
    have hnone : UserData.empty.Releasable h owner := .inr (.inl rfl)
    obtain ⟨hsound, hholds⟩ := set_holds hf hnone e.userData
    exact ⟨touches_set hf owner .empty e.userData, hsound, _, rfl, hholds⟩

/-! ### Errors -/

/-- An `Error` that has a value; where it has an error of a class, the members for user data without
one have no block. -/
inductive Represents (h : Heap) (owner : ℕ) : Error → Shown → Prop
  | noError {u : UserData} {data : List UInt8} (hu : Holds h owner u data) :
    Represents h owner ⟨none, u⟩ (.noError data)
  | custom {c : ErrMsgBase} {u : UserData} {data : List UInt8} (hc : Holds h owner c.userData data)
      (hu : ∀ n, u.pucUserData ≠ .block n) :
    Represents h owner ⟨some c, u⟩
      (CustomError.mk c.className c.lErrMsgIdentifier c.pErrMsg data).shown

namespace Represents

variable {e err : Error} {v w : Shown}

theorem shown (hr : Represents h x e v) : e.shown h = some v := by
  cases hr with
  | noError hu =>
    show (UserData.get h _).map _ = _
    rw [hu.get]
    rfl
  | custom hc hu =>
    show (UserData.get h _).map _ = _
    rw [hc.get]
    rfl

theorem frame {o : ℕ} (hr : Represents h x e v) (ht : Touches o h h') (ho : x ≠ o) :
    Represents h' x e v := by
  cases hr with
  | noError hu => exact noError (hu.frame ht ho)
  | custom hc hu => exact custom (hc.frame ht ho) hu

/-- **The first part of an assignment** leaves no error of a class and no block. -/
theorem delete (hr : Represents h x e v) :
    Touches x h (e.delete h x).1 ∧ (e.delete h x).1.sound = h.sound ∧
      (e.delete h x).2.pebCustomError = none ∧
        (∀ n, (e.delete h x).2.noErrorUserData.pucUserData ≠ .block n) ∧
          (e.pebCustomError = none →
            (e.delete h x).2.noErrorUserData.ulUserDataBytes ≤ preAllocatedUserDataBytes) ∧
              (e.pebCustomError ≠ none →
                (e.delete h x).2.noErrorUserData = e.noErrorUserData) := by
  cases hr with
  | @noError u data hu =>
    refine ⟨touches_release h x u, hu.releasable.sound, rfl, ?_⟩
    show (∀ n, (u.release h x).2.pucUserData ≠ .block n) ∧
      (_ → (u.release h x).2.ulUserDataBytes ≤ _) ∧ _
    have hcustom : ∀ q : Prop, (⟨none, u⟩ : Error).pebCustomError ≠ none → q :=
      fun q hne => absurd rfl hne
    cases hu with
    | nothing written =>
      rw [release_of_le h x (Nat.zero_le _)]
      exact ⟨fun n => Pointer.noConfusion, fun _ => Nat.zero_le _, hcustom _⟩
    | inArray data rest hshort =>
      rw [release_of_le h x hshort]
      exact ⟨fun n => Pointer.noConfusion, fun _ => hshort, hcustom _⟩
    | inBlock written hlong hblock =>
      rw [release_of_lt h x hlong]
      exact ⟨fun n => Pointer.noConfusion, fun _ => Nat.zero_le _, hcustom _⟩
  | @custom c u data hc hu =>
    exact ⟨touches_release h x c.userData, hc.releasable.sound, rfl, hu,
      fun hnone => (by cases hnone), fun _ => rfl⟩

/-- **The second part of an assignment** takes the value of the parameter. -/
theorem take (hf : h.Fresh) (hblock : ∀ n, e.noErrorUserData.pucUserData ≠ .block n)
    (herr : Represents h y err w)
    (hfree : err.pebCustomError = none → err.noErrorUserData.ulUserDataBytes ≠ 0 →
      e.noErrorUserData.Releasable h x) :
    Touches x h (e.take h x err).1 ∧ (e.take h x err).1.sound = h.sound ∧
      Represents (e.take h x err).1 x (e.take h x err).2 w := by
  unfold Error.take
  cases herr with
  | @noError u data hu =>
    dsimp only
    by_cases hdata : u.ulUserDataBytes ≠ 0 ∧ u.pucUserData ≠ .null
    · rw [if_pos hdata, hu.get]
      obtain ⟨hsound, hholds⟩ := set_holds hf (hfree rfl hdata.1) data
      exact ⟨touches_set hf x _ data, hsound, noError hholds⟩
    · rw [if_neg hdata]
      refine ⟨Touches.refl x h, rfl, ?_⟩
      -- there are no data to take
      have hnil : data = [] := by
        cases hu with
        | nothing written => rfl
        | inArray data rest hshort =>
          exact List.length_eq_zero_iff.mp (not_not.mp fun hne =>
            hdata ⟨hne, Pointer.noConfusion⟩)
        | inBlock written hlong hblock =>
          exact absurd ⟨Nat.ne_of_gt (Nat.zero_lt_of_lt hlong), Pointer.noConfusion⟩ hdata
      rw [hnil]
      exact noError (Holds.nothing _)
  | @custom c u data hc hu =>
    dsimp only
    unfold ErrMsgBase.duplicate
    rw [hc.get]
    obtain ⟨ht, hsound, u', heq, hholds⟩ := CustomError.duplicate_holds hf x
      ⟨c.className, c.lErrMsgIdentifier, c.pErrMsg, data⟩
    refine ⟨ht, hsound, ?_⟩
    dsimp only
    rw [heq]
    exact custom (c := ⟨c.className, c.lErrMsgIdentifier, c.pErrMsg, u'⟩) hholds hblock

end Represents

/-! ### The objects of a program -/

namespace Errors

variable {s s' : Errors} {e err : Error} {v w : Shown}

/-- Every object shows the value that was last given to it, and only blocks of the objects' own
were freed. -/
def Plain (s : Errors) : Prop :=
  s.heap.sound = true ∧ ∀ x e, s.objects x = some e → e.shown s.heap = s.values x

/-- An object that has an error of a class, or data on the heap, is not assigned to itself; and user
data without an error are not assigned to an object with an error whose members for them are
uninitialised, and happen to stand for data on the heap. -/
def Assignable (s : Errors) : Action → Prop
  | .assign x y => ∀ e err, s.objects x = some e → s.objects y = some err →
    if x = y then
      e.pebCustomError = none ∧
        e.noErrorUserData.ulUserDataBytes ≤ preAllocatedUserDataBytes
    else
      e.pebCustomError = none ∨ err.pebCustomError ≠ none ∨
        err.noErrorUserData.ulUserDataBytes = 0 ∨
          e.noErrorUserData.ulUserDataBytes ≤ preAllocatedUserDataBytes ∨
            e.noErrorUserData.pucUserData = .null
  | _ => True

/-- The invariant. -/
structure Sound (s : Errors) : Prop where
  sound : s.heap.sound = true
  fresh : s.heap.Fresh
  represents : ∀ x e, s.objects x = some e →
    ∃ v, s.values x = some v ∧ Represents s.heap x e v

theorem Sound.plain (hs : s.Sound) : s.Plain := by
  refine ⟨hs.sound, fun x e he => ?_⟩
  obtain ⟨v, hv, hr⟩ := hs.represents x e he
  rw [hv]
  exact hr.shown

theorem sound_initial : initial.Sound :=
  ⟨rfl, fun _ _ => rfl, fun _ _ h => (by cases h)⟩

/-- One object is changed. -/
theorem Sound.put (hs : s.Sound) {r : Heap × Error} (ht : Touches x s.heap r.1)
    (hsound : r.1.sound = s.heap.sound) (hr : Represents r.1 x r.2 v) :
    (s.put x r (some v)).Sound where
  sound := hsound.trans hs.sound
  fresh := ht.fresh hs.fresh
  represents y e' he' := by
    change Function.update s.objects x (some r.2) y = some e' at he'
    show ∃ v', Function.update s.values x (some v) y = some v' ∧ Represents r.1 y e' v'
    by_cases hy : y = x
    · subst hy
      rw [Function.update_self] at he' ⊢
      obtain rfl := Option.some.inj he'
      exact ⟨v, rfl, hr⟩
    · rw [Function.update_of_ne hy] at he' ⊢
      obtain ⟨v', hv', hr'⟩ := hs.represents y e' he'
      exact ⟨v', hv', hr'.frame ht hy⟩

/-- What an assignment is. -/
theorem assign_eq_some (h : s.assign x y = some s') : ∃ e err, s.objects x = some e ∧
    Function.update s.objects x (some (e.delete s.heap x).2) y = some err ∧
      s' = s.put x ((e.delete s.heap x).2.take (e.delete s.heap x).1 x err) (s.values y) := by
  obtain ⟨e, he, h⟩ := Option.bind_eq_some_iff.mp h
  obtain ⟨err, herr, h⟩ := Option.bind_eq_some_iff.mp h
  exact ⟨e, err, he, herr, (Option.some.inj h).symm⟩

/-- An assignment of another object. -/
theorem Sound.assign_of_ne (hs : s.Sound) (hxy : x ≠ y) (hassign : s.Assignable (.assign x y))
    (h : s.assign x y = some s') : s'.Sound := by
  obtain ⟨e, err, he, herr, rfl⟩ := assign_eq_some h
  rw [Function.update_of_ne hxy.symm] at herr
  obtain ⟨v, -, hr⟩ := hs.represents x e he
  obtain ⟨w, hw, hrerr⟩ := hs.represents y err herr
  obtain ⟨ht, hsound, -, hblock, hshort, hsame⟩ := hr.delete
  have hfresh : (e.delete s.heap x).1.Fresh := ht.fresh hs.fresh
  have hfree : err.pebCustomError = none → err.noErrorUserData.ulUserDataBytes ≠ 0 →
      (e.delete s.heap x).2.noErrorUserData.Releasable (e.delete s.heap x).1 x := by
    intro hnone hdata
    by_cases hcustom : e.pebCustomError = none
    · exact .inl (hshort hcustom)
    · rw [hsame hcustom]
      have hassign' := hassign e err he herr
      rw [if_neg hxy] at hassign'
      rcases hassign' with h | h | h | h | h
      · exact absurd h hcustom
      · exact absurd hnone h
      · exact absurd h hdata
      · exact .inl h
      · exact .inr (.inl h)
  obtain ⟨ht', hsound', hr'⟩ := (hrerr.frame ht hxy.symm).take hfresh hblock hfree
  rw [hw]
  exact hs.put (ht.trans ht') (hsound'.trans hsound) hr'

/-- An assignment of the object itself, where nothing is deleted. -/
theorem Sound.assign_self (hs : s.Sound) (hassign : s.Assignable (.assign x x))
    (h : s.assign x x = some s') : s'.Sound := by
  obtain ⟨e, err, he, herr, rfl⟩ := assign_eq_some h
  rw [Function.update_self] at herr
  obtain rfl := Option.some.inj herr
  have hassign' := hassign e e he he
  rw [if_pos rfl] at hassign'
  obtain ⟨hnone, hshort⟩ := hassign'
  have hdelete : e.delete s.heap x = (s.heap, e) := by
    obtain ⟨custom, u⟩ := e
    obtain rfl : custom = none := hnone
    show ((u.release s.heap x).1, (⟨none, (u.release s.heap x).2⟩ : Error)) = _
    rw [release_of_le s.heap x hshort]
  rw [hdelete]
  obtain ⟨v, hv, hr⟩ := hs.represents x e he
  have hblock : ∀ n, e.noErrorUserData.pucUserData ≠ .block n := by
    have := hr.delete.2.2.2.1
    rwa [hdelete] at this
  obtain ⟨ht', hsound', hr'⟩ := hr.take hs.fresh hblock fun _ _ => .inl hshort
  rw [hv]
  exact hs.put ht' hsound' hr'

/-- **One step** that is no assignment of the two kinds keeps the values. -/
theorem Sound.step {a : Action} (hs : s.Sound) (hassign : s.Assignable a)
    (h : Errors.step s a = some s') : s'.Sound := by
  cases a with
  | default x =>
    simp only [Errors.step] at h
    split at h
    · obtain rfl := Option.some.inj h
      exact hs.put (Touches.refl x s.heap) rfl (Represents.noError (Holds.nothing []))
    · cases h
  | ofCustomError x null bytes e =>
    simp only [Errors.step] at h
    split at h
    · obtain rfl := Option.some.inj h
      obtain ⟨ht, hsound, u, heq, hholds⟩ := CustomError.duplicate_holds hs.fresh x e
      refine hs.put ht hsound ?_
      unfold Error.ofCustomError
      dsimp only
      rw [heq]
      refine Represents.custom (c := ⟨e.className, e.lErrMsgIdentifier, e.pErrMsg, u⟩) hholds ?_
      intro n
      cases null <;> exact Pointer.noConfusion
    · cases h
  | copy x y =>
    simp only [Errors.step] at h
    split at h
    · next hx hy =>
      have hxy : x ≠ y := by
        rintro rfl
        cases hx.symm.trans hy
      -- the new object has no error of a class
      refine Sound.assign_of_ne (hs.put (Touches.refl x s.heap) rfl
        (Represents.noError (Holds.nothing []))) hxy (fun e err he _ => ?_) h
      change Function.update s.objects x (some Error.default) x = some e at he
      rw [Function.update_self] at he
      rw [if_neg hxy, ← Option.some.inj he]
      exact .inl rfl
    · cases h
  | assign x y =>
    by_cases hxy : x = y
    · subst hxy
      exact hs.assign_self hassign h
    · exact hs.assign_of_ne hxy hassign h
  | setUserData x data =>
    cases data with
    | none =>
      obtain ⟨e, -, rfl⟩ := Option.map_eq_some_iff.mp h
      exact hs
    | some data =>
      obtain ⟨e, he, rfl⟩ := Option.map_eq_some_iff.mp h
      obtain ⟨v, hv, hr⟩ := hs.represents x e he
      rw [hv]
      cases hr with
      | @noError u old hu =>
        obtain ⟨hsound, hholds⟩ := set_holds hs.fresh hu.releasable data
        exact hs.put (touches_set hs.fresh x u data) hsound (Represents.noError hholds)
      | @custom c u old hc hu =>
        obtain ⟨hsound, hholds⟩ := set_holds hs.fresh hc.releasable data
        exact hs.put (touches_set hs.fresh x c.userData data) hsound
          (Represents.custom (c := { c with userData := (c.userData.set s.heap x data).2 })
            hholds hu)
  | destroy x =>
    obtain ⟨e, he, rfl⟩ := Option.map_eq_some_iff.mp h
    obtain ⟨v, hv, hr⟩ := hs.represents x e he
    obtain ⟨ht, hsound, -⟩ := hr.delete
    refine ⟨hsound.trans hs.sound, ht.fresh hs.fresh, fun y e' he' => ?_⟩
    change Function.update s.objects x none y = some e' at he'
    show ∃ v', Function.update s.values x none y = some v' ∧ _
    by_cases hy : y = x
    · rw [hy, Function.update_self] at he'
      cases he'
    · rw [Function.update_of_ne hy] at he' ⊢
      obtain ⟨v', hv', hr'⟩ := hs.represents y e' he'
      exact ⟨v', hv', hr'.frame ht hy⟩

/-- What is assigned without an error of a class leaves no error of a class. -/
theorem pebCustomError_take (herr : err.pebCustomError = none) (h : Heap) (owner : ℕ) (e : Error) :
    (e.take h owner err).2.pebCustomError = none := by
  unfold Error.take
  rw [herr]
  dsimp only
  split
  · split <;> rfl
  · rfl

/-- The value of an object after an assignment that leaves the values plain. -/
theorem shown_of_plain {r : Heap × Error} {value : Option Shown} (h : (s.put x r value).Plain) :
    r.2.shown r.1 = value := by
  have := h.2 x r.2 (Function.update_self ..)
  exact this.trans (Function.update_self ..)

/-- An object that is assigned to itself loses what it deletes. -/
theorem assignable_of_self (hs : s.Sound) (h : s.assign x x = some s') (hplain : s'.Plain) :
    s.Assignable (.assign x x) := by
  intro e err he herr
  rw [if_pos rfl]
  obtain ⟨e', err', he', herr', rfl⟩ := assign_eq_some h
  obtain rfl := Option.some.inj (he.symm.trans he')
  rw [Function.update_self] at herr'
  obtain rfl := Option.some.inj herr'
  obtain ⟨v, hv, hr⟩ := hs.represents x e he
  have hshown := shown_of_plain hplain
  rw [hv] at hshown
  obtain ⟨-, -, hnone, -⟩ := hr.delete
  have hpeb := pebCustomError_take hnone (e.delete s.heap x).1 x (e.delete s.heap x).2
  cases hr with
  | @noError u data hu =>
    refine ⟨rfl, ?_⟩
    by_contra hlong
    have hlong' := Nat.not_le.mp hlong
    cases hu with
    | nothing written => cases hlong'
    | inArray data rest hshort => exact hlong hshort
    | @inBlock written n data _ hblock =>
      -- the data are deleted, and none are left to take
      have hdelete : Error.delete s.heap x ⟨none, ⟨written, .block n, data.length⟩⟩ =
          (s.heap.delete x (.block n), ⟨none, ⟨written, .null, 0⟩⟩) := by
        show ((UserData.release _ _ _).1, (⟨none, (UserData.release _ _ _).2⟩ : Error)) = _
        rw [release_of_lt s.heap x hlong']
      rw [hdelete] at hshown
      have hnil : Shown.noError [] = Shown.noError data := Option.some.inj hshown
      have hdata : [] = data := congrArg Shown.userData hnil
      rw [← hdata] at hlong'
      cases hlong'
  | @custom c u data hc hu =>
    exfalso
    unfold Error.shown at hshown
    rw [hpeb] at hshown
    obtain ⟨data', -, heq⟩ := Option.map_eq_some_iff.mp hshown
    have htrue := congrArg Shown.isNoError heq
    cases htrue

/-- Uninitialised members that stand for data on the heap are deleted. -/
theorem assignable_of_ne (hs : s.Sound) (hxy : x ≠ y) (h : s.assign x y = some s')
    (hplain : s'.Plain) : s.Assignable (.assign x y) := by
  intro e err he herr
  rw [if_neg hxy]
  obtain ⟨e', err', he', herr', rfl⟩ := assign_eq_some h
  rw [Function.update_of_ne hxy.symm] at herr'
  obtain rfl := Option.some.inj (he.symm.trans he')
  obtain rfl := Option.some.inj (herr.symm.trans herr')
  by_contra hbad
  simp only [not_or, not_not] at hbad
  obtain ⟨hcustom, hnone, hdata, hlong, hnull⟩ := hbad
  obtain ⟨v, -, hr⟩ := hs.represents x e he
  obtain ⟨w, -, hrerr⟩ := hs.represents y err herr
  obtain ⟨ht, -, -, hblock, -, hsame⟩ := hr.delete
  rw [hsame hcustom] at hblock
  have hsound := hplain.1
  change ((e.delete s.heap x).2.take (e.delete s.heap x).1 x err).1.sound = true at hsound
  have hrerr' := hrerr.frame ht hxy.symm
  generalize (e.delete s.heap x).1 = h₁ at hsound hrerr'
  cases hrerr' with
  | custom hc hu => cases hnone
  | @noError u data hu =>
    have hpointer : u.pucUserData ≠ .null := by
      cases hu with
      | nothing written => exact absurd rfl hdata
      | inArray data rest hshort => exact Pointer.noConfusion
      | inBlock written hlong hblock => exact Pointer.noConfusion
    unfold Error.take at hsound
    dsimp only at hsound
    rw [if_pos ⟨hdata, hpointer⟩, hu.get] at hsound
    dsimp only at hsound
    rw [hsame hcustom, set_uninitialised (Nat.not_le.mp hlong) hnull hblock] at hsound
    cases hsound

theorem assignable_of_plain {a : Action} (hs : s.Sound) (h : Errors.step s a = some s')
    (hplain : s'.Plain) : s.Assignable a := by
  cases a with
  | assign x y =>
    by_cases hxy : x = y
    · subst hxy
      exact assignable_of_self hs h hplain
    · exact assignable_of_ne hs hxy h hplain
  | _ => trivial

/-- **The errors of every run** behave as plain values exactly when no assignment is one of the two
that delete what they should not. -/
theorem plain_run_iff (actions : List Action) :
    Always Errors.step (fun _ _ s' => s'.Plain) initial actions ↔
      Always Errors.step (fun s a _ => s.Assignable a) initial actions := by
  refine always_iff_of_invariant (fun s a s' (hs : s.Sound) h => ⟨?_, fun hassign => ?_⟩)
    (fun s a s' hs h hplain => ?_) sound_initial actions
  · exact assignable_of_plain hs h
  · exact (hs.step hassign h).plain
  · exact hs.step (assignable_of_plain hs h hplain) h

/-- Forty bytes of user data are lost when their object is assigned to itself. -/
theorem not_plain_self :
    ¬Always Errors.step (fun _ _ s' => s'.Plain) initial
      [.default 0, .setUserData 0 (some (List.replicate 40 7)), .assign 0 0] := by
  intro h
  have hplain := (((h _ rfl).2 _ rfl).2 _ rfl).1
  exact absurd (hplain.2 0 _ rfl) (by decide)

end Errors

end ErrMsg

end CatraLibraries
