/-
# Numbers that come round

Numbers from 1 to `N` are given out in turn, and after `N` comes 1 again.  The age of a number
is how many numbers were given out since; it tells the numbers apart, and grows by one with
every new number (`age_next`).  The number of a given age is `retired` (`age_eq_iff`), so that
who removes it keeps the younger ones (`age_lt_of_ne`).

`n` is 0 before the first number is given out.
-/
import Mathlib.Data.Finset.Card
import Mathlib.Data.Int.Order.Basic
import Mathlib.Data.Finset.Range
import Mathlib.Tactic.Choose

namespace CyclicNumbers

/-- The number after `n`. -/
def next (N n : ℤ) : ℤ := if n ≥ N then 1 else n + 1

/-- How many numbers were given out since `k`, when `n` is the last one. -/
def age (N n k : ℤ) : ℤ := if k ≤ n then n - k else n + N - k

/-- The number that is `M` back from the next one. -/
def retired (N n M : ℤ) : ℤ := if n ≥ M then n - M + 1 else n + N - M + 1

variable {N n k M : ℤ}

theorem age_self : age N n n = 0 := by
  unfold age
  rw [if_pos (Int.le_refl n)]
  omega

theorem age_nonneg (hn : 0 ≤ n) (hk : k ≤ N) : 0 ≤ age N n k := by
  unfold age
  split_ifs <;> omega

/-- Every number but the next one gets older. -/
theorem age_next (hnN : n ≤ N) (hk : 1 ≤ k) (hkN : k ≤ N)
    (hage : age N n k < N - 1) :
    age N (next N n) k = age N n k + 1 := by
  unfold age at hage ⊢
  unfold next
  split_ifs at hage ⊢ <;> omega

/-- Numbers of one age are the same. -/
theorem age_injective {j : ℤ} (hj : 1 ≤ j) (hjN : j ≤ N) (hk : 1 ≤ k) (hkN : k ≤ N)
    (h : age N n j = age N n k) : j = k := by
  unfold age at h
  split at h <;> split at h <;> omega

/-- **The number of an age.** -/
theorem age_eq_iff (hM : 1 ≤ M) (hMN : M ≤ N) (hk : 1 ≤ k) (hkN : k ≤ N) :
    age N n k = M - 1 ↔ k = retired N n M := by
  unfold age retired
  split_ifs <;> omega

/-- Without the number of an age, the others of at most this age are younger. -/
theorem age_lt_of_ne (hM : 1 ≤ M) (hMN : M ≤ N) (hk : 1 ≤ k) (hkN : k ≤ N)
    (hage : age N n k < M) (hne : k ≠ retired N n M) : age N n k < M - 1 := by
  have hage' : age N n k ≠ M - 1 := fun h => hne ((age_eq_iff hM hMN hk hkN).mp h)
  omega

/-- A list whose members have numbers below `m`, no two of them the same, is no longer than
`m`. -/
theorem length_le_of_numbered {α : Type*} {l : List α} (hM : 0 ≤ M) (hl : l.Nodup) {R : α → ℤ → Prop}
    (hnum : ∀ a ∈ l, ∃ i, 0 ≤ i ∧ i < M ∧ R a i)
    (hinj : ∀ a ∈ l, ∀ b ∈ l, ∀ i, R a i → R b i → a = b) : (l.length : ℤ) ≤ M := by
  classical
  choose! f hnonneg hlt hR using hnum
  have hcard : l.toFinset.card ≤ (Finset.range M.toNat).card := by
    refine Finset.card_le_card_of_injOn (fun a => (f a).toNat) ?_ ?_
    · intro a ha
      have hmem := List.mem_toFinset.mp ha
      have h0 := hnonneg a hmem
      have hM := hlt a hmem
      simp only [Finset.coe_range, Set.mem_Iio]
      omega
    · intro a ha b hb heq
      have hmema := List.mem_toFinset.mp ha
      have hmemb := List.mem_toFinset.mp hb
      have h0 := hnonneg a hmema
      have h0' := hnonneg b hmemb
      have hf : f a = f b := by
        have heq' : (f a).toNat = (f b).toNat := heq
        omega
      exact hinj a hmema b hmemb (f a) (hR a hmema) (hf ▸ hR b hmemb)
  rw [List.toFinset_card_of_nodup hl, Finset.card_range] at hcard
  omega

end CyclicNumbers
