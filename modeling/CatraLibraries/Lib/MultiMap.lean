/-
# Ordered multimaps

A container of the kind of `std::multimap`: entries in the order of their keys, and
entries with equal keys in the order in which they were inserted.  `find` and `erase`
work on the first entry of a key, `begin?` is the first entry of all.

The abstract view of a multimap is a family of queues, one for each key: `under m k`
lists the values of `k`, oldest first.  Insertion puts a value at the end of the queue of
its key, `erase` takes the first one off, and `begin?` is the front of the first queue
that is not empty.  The lemmas say this for each operation, so that their users need
not look at the entries.
-/
import Mathlib.Data.List.Basic
import Mathlib.Order.Basic
import Mathlib.Order.Lattice

universe u v

/-- Entries in the order of their keys. -/
@[ext]
structure MultiMap (κ : Type u) (ν : Type v) [LinearOrder κ] where
  entries : List (κ × ν)
  sorted : entries.Pairwise fun x y => x.1 ≤ y.1

namespace MultiMap

variable {κ : Type u} {ν : Type v} [LinearOrder κ]

/-! ### Operations -/

def empty : MultiMap κ ν := ⟨[], List.Pairwise.nil⟩

/-- The entries after `(k, v)` is put behind all those with a key up to `k`. -/
def insertEntries (k : κ) (v : ν) : List (κ × ν) → List (κ × ν)
  | [] => [(k, v)]
  | x :: xs => if x.1 ≤ k then x :: insertEntries k v xs else (k, v) :: x :: xs

theorem mem_insertEntries {k : κ} {v : ν} {x : κ × ν} {l : List (κ × ν)} :
    x ∈ insertEntries k v l ↔ x = (k, v) ∨ x ∈ l := by
  induction l with
  | nil => simp [insertEntries]
  | cons y l ih =>
    rw [insertEntries]
    split_ifs
    · rw [List.mem_cons, ih, List.mem_cons]
      exact or_left_comm
    · rw [List.mem_cons]

/-- An insertion keeps a relation of the entries in their order, where it holds of those up to the
new one and of the new one and those after it. -/
theorem pairwise_insertEntries_of {R : κ × ν → κ × ν → Prop} {k : κ} {v : ν} {l : List (κ × ν)}
    (hsorted : l.Pairwise fun x y => x.1 ≤ y.1) (h : l.Pairwise R)
    (hbefore : ∀ x ∈ l, x.1 ≤ k → R x (k, v)) (hafter : ∀ x ∈ l, k < x.1 → R (k, v) x) :
    (insertEntries k v l).Pairwise R := by
  induction l with
  | nil => exact List.pairwise_singleton _ _
  | cons y l ih =>
    obtain ⟨hle, hsorted'⟩ := List.pairwise_cons.mp hsorted
    obtain ⟨hy, hl⟩ := List.pairwise_cons.mp h
    rw [insertEntries]
    split_ifs with hk
    · refine List.pairwise_cons.mpr ⟨?_, ih hsorted' hl
        (fun x hx => hbefore x (List.mem_cons_of_mem y hx))
        fun x hx => hafter x (List.mem_cons_of_mem y hx)⟩
      intro x hx
      rcases mem_insertEntries.mp hx with rfl | hx
      · exact hbefore y List.mem_cons_self hk
      · exact hy x hx
    · refine List.pairwise_cons.mpr ⟨fun x hx => hafter x hx ?_, h⟩
      have hky : k < y.1 := lt_of_not_ge hk
      rcases List.mem_cons.mp hx with rfl | hx
      · exact hky
      · exact hky.trans_le (hle x hx)

theorem pairwise_insertEntries (k : κ) (v : ν) {l : List (κ × ν)}
    (h : l.Pairwise fun x y => x.1 ≤ y.1) :
    (insertEntries k v l).Pairwise fun x y => x.1 ≤ y.1 :=
  pairwise_insertEntries_of h h (fun _ _ hx => hx) fun _ _ hx => hx.le

theorem insertEntries_perm (k : κ) (v : ν) (l : List (κ × ν)) :
    (insertEntries k v l).Perm ((k, v) :: l) := by
  induction l with
  | nil => exact List.Perm.refl _
  | cons y l ih =>
    rw [insertEntries]
    split_ifs
    · exact (ih.cons y).trans (List.Perm.swap ..)
    · exact List.Perm.refl _

/-- Insert at the upper bound of the key. -/
def insert (m : MultiMap κ ν) (k : κ) (v : ν) : MultiMap κ ν :=
  ⟨insertEntries k v m.entries, pairwise_insertEntries k v m.sorted⟩

/-- The first entry, if there is one. -/
def begin? (m : MultiMap κ ν) : Option (κ × ν) := m.entries.head?

/-- The first entry with the key. -/
def find? (m : MultiMap κ ν) (k : κ) : Option (κ × ν) := m.entries.find? fun x => x.1 = k

/-- Remove the first entry with the key. -/
def erase (m : MultiMap κ ν) (k : κ) : MultiMap κ ν :=
  ⟨m.entries.eraseP fun x => x.1 = k, m.sorted.sublist List.eraseP_sublist⟩

theorem entries_erase (m : MultiMap κ ν) (k : κ) :
    (m.erase k).entries = m.entries.eraseP fun x => x.1 = k := rfl

/-- The number of entries. -/
def size (m : MultiMap κ ν) : Nat := m.entries.length

/-! ### One queue for each key -/

/-- The values of a key, in the order of their insertion. -/
def under (m : MultiMap κ ν) (k : κ) : List ν :=
  (m.entries.filter fun x => x.1 = k).map Prod.snd

theorem mem_under {m : MultiMap κ ν} {k : κ} {v : ν} : v ∈ m.under k ↔ (k, v) ∈ m.entries := by
  simp [under]

theorem under_insertEntries (k k' : κ) (v : ν) {l : List (κ × ν)}
    (h : l.Pairwise fun x y => x.1 ≤ y.1) :
    (insertEntries k v l).filter (fun x => x.1 = k')
      = l.filter (fun x => x.1 = k') ++ if k' = k then [(k, v)] else [] := by
  induction l with
  | nil =>
    rw [insertEntries, List.filter_cons]
    by_cases hk : k' = k
    · simp [hk]
    · simp [hk, Ne.symm hk]
  | cons y l ih =>
    obtain ⟨hy, hl⟩ := List.pairwise_cons.mp h
    rw [insertEntries]
    split_ifs with hle hk hk
    · rw [List.filter_cons, ih hl, if_pos hk, List.filter_cons]
      split_ifs <;> rfl
    · rw [List.filter_cons, ih hl, if_neg hk, List.filter_cons, List.append_nil, List.append_nil]
    · -- behind the insertion every key is larger than `k`
      have hnone : (y :: l).filter (fun x => x.1 = k') = [] := by
        rw [List.filter_eq_nil_iff]
        intro x hx hxk
        have hyx : y.1 ≤ x.1 := by
          rcases List.mem_cons.mp hx with rfl | hx
          · exact le_rfl
          · exact hy x hx
        exact hle (hyx.trans (of_decide_eq_true hxk ▸ hk.le))
      rw [List.filter_cons, if_pos (by simp [hk]), hnone]
      rfl
    · rw [List.filter_cons, if_neg (by simpa using Ne.symm hk), List.append_nil]

/-- **Insertion** goes to the end of the queue of the key. -/
theorem under_insert (m : MultiMap κ ν) (k k' : κ) (v : ν) :
    (m.insert k v).under k' = m.under k' ++ if k' = k then [v] else [] := by
  rw [under, insert, under_insertEntries k k' v m.sorted, List.map_append, under]
  split_ifs <;> rfl

theorem filter_eraseP_of_imp {α : Type*} {p q : α → Bool} (hpq : ∀ a, p a = true → q a = true)
    (l : List α) (hfirst : ∀ a, l.find? q = some a → p a = true) :
    (l.eraseP p).filter q = (l.filter q).tail := by
  induction l with
  | nil => rfl
  | cons a l ih =>
    by_cases hq : q a = true
    · have hp : p a = true := hfirst a (by rw [List.find?_cons_of_pos hq])
      rw [List.eraseP_cons_of_pos hp, List.filter_cons_of_pos hq, List.tail_cons]
    · have hp : ¬ p a = true := fun h => hq (hpq a h)
      rw [List.find?_cons_of_neg hq] at hfirst
      rw [List.eraseP_cons_of_neg hp, List.filter_cons_of_neg hq, List.filter_cons_of_neg hq,
        ih hfirst]

theorem filter_eraseP_of_disjoint {α : Type*} {p q : α → Bool}
    (hpq : ∀ a, p a = true → q a = false) (l : List α) :
    (l.eraseP p).filter q = l.filter q := by
  induction l with
  | nil => rfl
  | cons a l ih =>
    by_cases hp : p a = true
    · rw [List.eraseP_cons_of_pos hp, List.filter_cons_of_neg (by simp [hpq a hp])]
    · rw [List.eraseP_cons_of_neg hp, List.filter_cons, List.filter_cons, ih]

/-- **Erasing** takes the front of the queue of the key. -/
theorem under_erase (m : MultiMap κ ν) (k k' : κ) :
    (m.erase k).under k' = if k' = k then (m.under k').tail else m.under k' := by
  rw [under, erase]
  split_ifs with hk
  · subst hk
    rw [filter_eraseP_of_imp (fun _ h => h) _ (fun a h => by simpa using List.find?_some h), under,
      List.map_tail]
  · rw [filter_eraseP_of_disjoint, under]
    intro x hx
    simp only [decide_eq_true_eq] at hx
    simpa [hx] using Ne.symm hk

/-- **Finding** looks at the front of the queue of the key. -/
theorem find?_eq (m : MultiMap κ ν) (k : κ) :
    m.find? k = (m.under k).head?.map fun v => (k, v) := by
  rw [find?, under, List.head?_map, ← List.head?_filter, Option.map_map]
  cases h : (m.entries.filter fun x => x.1 = k).head? with
  | none => rfl
  | some x =>
    have hx := List.mem_filter.mp (List.mem_of_mem_head? h)
    have hk : x.1 = k := of_decide_eq_true hx.2
    rw [Option.map_some, Function.comp_apply, ← hk]

theorem begin?_eq_none {m : MultiMap κ ν} : m.begin? = none ↔ ∀ k, m.under k = [] := by
  rw [begin?, List.head?_eq_none_iff]
  constructor
  · intro h k
    rw [under, h]
    rfl
  · intro h
    rw [List.eq_nil_iff_forall_not_mem]
    rintro ⟨k, v⟩ hx
    have := mem_under.mpr hx
    rw [h k] at this
    exact absurd this List.not_mem_nil

/-- **The first entry** is the front of the queue of its key, and no smaller key has a
value. -/
theorem begin?_eq_some {m : MultiMap κ ν} {k : κ} {v : ν} (h : m.begin? = some (k, v)) :
    (m.under k).head? = some v ∧ ∀ k' w, w ∈ m.under k' → k ≤ k' := by
  obtain ⟨entries, sorted⟩ := m
  cases entries with
  | nil => exact absurd h (by simp [begin?])
  | cons x l =>
    obtain rfl : x = (k, v) := by simpa [begin?] using h
    refine ⟨by simp [under], ?_⟩
    intro k' w hw
    rcases List.mem_cons.mp (mem_under.mp hw) with heq | hmem
    · exact (Prod.mk.inj heq).1.ge
    · exact (List.pairwise_cons.mp sorted).1 _ hmem

/-- Erasing the first entry is erasing the first one of its key. -/
theorem erase_begin? {m : MultiMap κ ν} {k : κ} {v : ν} (h : m.begin? = some (k, v)) :
    (m.erase k).entries = m.entries.tail := by
  obtain ⟨entries, sorted⟩ := m
  cases entries with
  | nil => exact absurd h (by simp [begin?])
  | cons x l =>
    obtain rfl : x = (k, v) := by simpa [begin?] using h
    rw [entries_erase, List.eraseP_cons_of_pos (by simp), List.tail_cons]

/-- The entries around the one that `find?` returns. -/
theorem find?_split {m : MultiMap κ ν} {k : κ} {x : κ × ν} (h : m.find? k = some x) :
    ∃ pre post, m.entries = pre ++ x :: post ∧ (m.erase k).entries = pre ++ post ∧ x.1 = k := by
  obtain ⟨hx, pre, post, hsplit, hpre⟩ := List.find?_eq_some_iff_append.mp h
  refine ⟨pre, post, hsplit, ?_, of_decide_eq_true hx⟩
  rw [entries_erase, hsplit, List.eraseP_append_right _ (by simpa using hpre),
    List.eraseP_cons_of_pos (by simpa using hx)]

end MultiMap
