/-
# Actions on a state

An action reads and changes a state and ends well or with an error; the state is there in both cases.
The rules here say what a sequence of two actions does from what the first one does.
-/
import Mathlib.Data.Nat.Notation

namespace Effects

variable {ε σ α β : Type}

/-- An action that only looks at the state. -/
def look (f : σ → Except ε α) : EStateM ε σ α := fun s =>
  match f s with
  | .ok a => .ok a s
  | .error e => .error e s

/-- An action that makes a new state, or fails and leaves the state as it is. -/
def change (f : σ → Except ε σ) : EStateM ε σ Unit := fun s =>
  match f s with
  | .ok s' => .ok () s'
  | .error e => .error e s

/-- An action with another one for the case that it fails; the error stays the first one's. -/
def onError (x : EStateM ε σ α) (y : EStateM ε σ Unit) : EStateM ε σ α := fun s =>
  match x s with
  | .ok a s' => .ok a s'
  | .error e s' =>
    match y s' with
    | .ok _ s'' => .error e s''
    | .error _ s'' => .error e s''

/-- The state after an action. -/
def after : EStateM.Result ε σ α → σ
  | .ok _ s => s
  | .error _ s => s

/-- The error of an action that ended with one. -/
def error? : EStateM.Result ε σ α → Option ε
  | .ok _ _ => none
  | .error e _ => some e

variable {x : EStateM ε σ α} {f : α → EStateM ε σ β} {s s' s'' : σ} {a : α} {b : β} {e : ε}

theorem bind_ok (h : x s = .ok a s') : (x >>= f) s = f a s' := by
  show EStateM.bind x f s = _
  unfold EStateM.bind
  rw [h]

theorem bind_error (h : x s = .error e s') : (x >>= f) s = .error e s' := by
  show EStateM.bind x f s = _
  unfold EStateM.bind
  rw [h]

/-- A sequence that ends well: both actions do. -/
theorem bind_eq_ok : (x >>= f) s = .ok b s'' ↔ ∃ a s', x s = .ok a s' ∧ f a s' = .ok b s'' := by
  constructor
  · intro h
    rcases hx : x s with ⟨a, s'⟩ | ⟨e, s'⟩
    · rw [bind_ok hx] at h
      exact ⟨a, s', rfl, h⟩
    · rw [bind_error hx] at h
      cases h
  · rintro ⟨a, s', hx, hf⟩
    rw [bind_ok hx]
    exact hf

theorem not_ok_of_error? {r : EStateM.Result ε σ α} (h : error? r = some e) : r ≠ .ok a s := by
  rintro rfl
  cases h

theorem onError_ok {y : EStateM ε σ Unit} (h : x s = .ok a s') : onError x y s = .ok a s' := by
  unfold onError
  rw [h]

theorem onError_error {y : EStateM ε σ Unit} (h : x s = .error e s') :
    onError x y s = .error e (after (y s')) := by
  unfold onError
  rw [h]
  show (match y s' with
    | .ok _ s'' => EStateM.Result.error e s''
    | .error _ s'' => .error e s'') = _
  rcases y s' with ⟨u, s''⟩ | ⟨e', s''⟩ <;> rfl

theorem look_ok {g : σ → Except ε α} (h : g s = .ok a) : look g s = .ok a s := by
  unfold look
  rw [h]

theorem look_error {g : σ → Except ε α} (h : g s = .error e) : look g s = .error e s := by
  unfold look
  rw [h]

theorem change_ok {g : σ → Except ε σ} (h : g s = .ok s') : change g s = .ok () s' := by
  unfold change
  rw [h]

theorem change_error {g : σ → Except ε σ} (h : g s = .error e) : change g s = .error e s := by
  unfold change
  rw [h]

theorem look_eq_ok {g : σ → Except ε α} : look g s = .ok a s' ↔ g s = .ok a ∧ s' = s := by
  unfold look
  rcases g s with e | a'
  · exact ⟨nofun, fun h => nomatch h.1⟩
  · constructor
    · rintro ⟨⟩
      exact ⟨rfl, rfl⟩
    · rintro ⟨⟨⟩, rfl⟩
      rfl

theorem change_eq_ok {g : σ → Except ε σ} {u : Unit} : change g s = .ok u s' ↔ g s = .ok s' := by
  unfold change
  rcases g s with e | s₁
  · exact ⟨nofun, nofun⟩
  · constructor
    · rintro ⟨⟩
      rfl
    · rintro ⟨⟩
      rfl

end Effects
