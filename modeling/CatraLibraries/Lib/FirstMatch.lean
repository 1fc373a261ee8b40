/-
# The first match

A loop over an array that ends at the first element of a kind, with a test that may fail, and what is
done at the place where it ends.  The lemmas compare an array with a list of what its elements stand
for: the loop ends at the index of the first one, and a change there is a change of the list.
-/
import Mathlib.Data.List.Forall2

namespace FirstMatch

universe u v w

variable {ε : Type u} {α : Type v} {β : Type w}

/-- The index of the first element that passes the test, or the number of the elements. -/
def find (test : α → Except ε Bool) : List α → Except ε Nat
  | [] => .ok 0
  | a :: as =>
    match test a with
    | .error e => .error e
    | .ok true => .ok 0
    | .ok false =>
      match find test as with
      | .error e => .error e
      | .ok n => .ok (n + 1)

variable {R : α → β → Prop} {test : α → Except ε Bool} {p : β → Bool} {as : List α} {bs : List β}
  {a : α} {b : β} {n : Nat}

theorem find_eq (htest : ∀ a b, R a b → test a = .ok (p b)) (h : List.Forall₂ R as bs) :
    find test as = .ok (bs.findIdx p) := by
  induction h with
  | nil => rfl
  | @cons a b as bs hab _ ih =>
    rw [find, htest a b hab, List.findIdx_cons]
    cases p b with
    | true => rfl
    | false =>
      dsimp only
      rw [ih]
      rfl

/-- The element at a place stands for the one of the list. -/
theorem forall₂_getD (h : List.Forall₂ R as bs) (hb : bs[n]? = some b) (d : α) : R (as.getD n d) b := by
  induction h generalizing n with
  | nil => cases hb
  | @cons a b' as bs hab _ ih =>
    cases n with
    | zero =>
      obtain rfl := Option.some.inj hb
      exact hab
    | succ n => exact ih hb

/-- A change at a place is one of the list. -/
theorem forall₂_set (h : List.Forall₂ R as bs) (n : Nat) (hab : R a b) :
    List.Forall₂ R (as.set n a) (bs.set n b) := by
  induction h generalizing n with
  | nil => exact .nil
  | cons hhead htail ih =>
    cases n with
    | zero => exact .cons hab htail
    | succ n => exact .cons hhead (ih n)

/-- What is put in its place already. -/
theorem set_self (h : bs[n]? = some b) : bs.set n b = bs := by
  obtain ⟨hlt, rfl⟩ := List.getElem?_eq_some_iff.mp h
  exact List.set_getElem_self hlt

/-- The first match, or none. -/
theorem findIdx_cases (p : β → Bool) (bs : List β) :
    (bs.findIdx p = bs.length ∧ bs[bs.findIdx p]? = none) ∨
      ∃ b, bs[bs.findIdx p]? = some b ∧ p b = true ∧ bs.findIdx p < bs.length := by
  rcases Nat.lt_or_ge (bs.findIdx p) bs.length with hlt | hge
  · exact Or.inr ⟨_, List.getElem?_eq_getElem hlt, List.findIdx_getElem, hlt⟩
  · have heq := Nat.le_antisymm List.findIdx_le_length hge
    exact Or.inl ⟨heq, List.getElem?_eq_none (Nat.le_of_eq heq.symm)⟩

end FirstMatch
