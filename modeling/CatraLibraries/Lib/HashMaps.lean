/-
# Hash maps

A hash map that is correct is a finite map whose iterator goes over the entries in some order:
an association list without duplicate keys.  `insertWithoutDuplication` refuses a key that is in
the map.

The lemmas say what insertion and deletion do to the entries, up to their order, and that each
value found under a key is one of the `values`.
-/
import Mathlib.Data.List.AList

namespace HashMaps

universe u v

/-- A map from keys to values. -/
abbrev HashMap (κ : Type u) (ν : Type v) := AList fun _ : κ => ν

variable {κ : Type u} {ν : Type v}

/-- The number of entries. -/
def size (m : HashMap κ ν) : ℕ := m.entries.length

/-- The values in the order of the iterator. -/
def values (m : HashMap κ ν) : List ν := m.entries.map Sigma.snd

@[simp] theorem length_values (m : HashMap κ ν) : (values m).length = size m :=
  List.length_map _

variable [DecidableEq κ] {m : HashMap κ ν} {k : κ} {v : ν}

/-- The insertion that leaves a key in the map as it is, and says so. -/
def insertWithoutDuplication (k : κ) (v : ν) (m : HashMap κ ν) : Bool × HashMap κ ν :=
  if k ∈ m then (false, m) else (true, m.insert k v)

theorem insertWithoutDuplication_of_mem (h : k ∈ m) :
    insertWithoutDuplication k v m = (false, m) := if_pos h

theorem insertWithoutDuplication_of_notMem (h : k ∉ m) :
    insertWithoutDuplication k v m = (true, m.insert k v) := if_neg h

theorem lookup_eq_some_iff : m.lookup k = some v ↔ Sigma.mk k v ∈ m.entries :=
  AList.mem_lookup_iff

theorem mem_of_lookup (h : m.lookup k = some v) : k ∈ m :=
  AList.lookup_isSome.mp (Option.isSome_of_eq_some h)

theorem mem_values_iff : v ∈ values m ↔ ∃ k, m.lookup k = some v := by
  unfold values
  rw [List.mem_map]
  constructor
  · rintro ⟨⟨k, v⟩, hmem, rfl⟩
    exact ⟨k, lookup_eq_some_iff.mpr hmem⟩
  · rintro ⟨k, h⟩
    exact ⟨⟨k, v⟩, lookup_eq_some_iff.mp h, rfl⟩

/-! ### Insertion -/

theorem entries_insert (h : k ∉ m) : (m.insert k v).entries = ⟨k, v⟩ :: m.entries :=
  AList.entries_insert_of_notMem h

theorem values_insert (h : k ∉ m) : values (m.insert k v) = v :: values m := by
  unfold values
  rw [entries_insert h, List.map_cons]

theorem size_insert (h : k ∉ m) : size (m.insert k v) = size m + 1 := by
  unfold size
  rw [entries_insert h, List.length_cons]

/-- Two keys of an insertion. -/
theorem lookup_insert_eq_some {k' : κ} {v' : ν} (h : (m.insert k v).lookup k' = some v') :
    (k' = k ∧ v' = v) ∨ (k' ≠ k ∧ m.lookup k' = some v') := by
  by_cases hk : k' = k
  · subst hk
    rw [AList.lookup_insert] at h
    exact .inl ⟨rfl, (Option.some.inj h).symm⟩
  · rw [AList.lookup_insert_ne hk] at h
    exact .inr ⟨hk, h⟩

/-! ### Deletion -/

/-- **Deletion takes one entry away.** -/
theorem entries_perm_erase (h : m.lookup k = some v) :
    m.entries.Perm (⟨k, v⟩ :: (m.erase k).entries) := by
  obtain ⟨v', l₁, l₂, -, hcut, herase⟩ := List.exists_of_kerase (mem_of_lookup h)
  have hv : v' = v := by
    have hmem : Sigma.mk k v' ∈ m.entries := by
      rw [hcut]
      exact List.mem_append_right _ List.mem_cons_self
    rw [← lookup_eq_some_iff, h] at hmem
    exact (Option.some.inj hmem).symm
  subst hv
  show m.entries.Perm (⟨k, v'⟩ :: List.kerase k m.entries)
  rw [herase, hcut]
  exact List.perm_middle

theorem values_perm_erase (h : m.lookup k = some v) :
    (values m).Perm (v :: values (m.erase k)) :=
  (entries_perm_erase h).map fun e : Sigma fun _ : κ => ν => e.2

theorem size_erase (h : m.lookup k = some v) : size m = size (m.erase k) + 1 :=
  (entries_perm_erase h).length_eq

theorem lookup_of_erase {k' : κ} {v' : ν} (h : (m.erase k).lookup k' = some v') :
    k' ≠ k ∧ m.lookup k' = some v' := by
  have hne : k' ≠ k := by
    rintro rfl
    rw [AList.lookup_erase] at h
    cases h
  rw [AList.lookup_erase_ne hne] at h
  exact ⟨hne, h⟩

/-- Deletion of what was just inserted. -/
theorem erase_insert (h : k ∉ m) : (m.insert k v).erase k = m := by
  refine AList.ext ?_
  show List.kerase k (m.insert k v).entries = m.entries
  rw [entries_insert h]
  exact List.kerase_cons_eq rfl

end HashMaps
