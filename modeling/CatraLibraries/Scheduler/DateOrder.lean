/-
# The order of the dates

A date of `Times` is compared with the clock as text, by `strcmp`.  The fields are printed in
fixed widths, the greatest first, so the order of the texts is the order of the dates as long as
every field fits its width.
-/
import CatraLibraries.Scheduler.LocalTime

namespace CatraLibraries

open Stdio Calendar

variable {u v : Int} {a b : Nat}

/-- Fields that fit are compared as they are. -/
theorem toUnsignedLong_order {i j : Int} (hi : 0 ≤ i ∧ i ≤ 9999) (hj : 0 ≤ j ∧ j ≤ 9999) :
    (toUnsignedLong i = toUnsignedLong j ↔ i = j) ∧ (toUnsignedLong i < toUnsignedLong j ↔ i < j) := by
  have hi' := (toUnsignedLong_eq hi.1 hi.2).1
  have hj' := (toUnsignedLong_eq hj.1 hj.2).1
  omega

/-- Two printed fields of one width, and what follows them. -/
theorem strcmpLe_field {width : Nat} {i j : Int} (hw : 0 < width) (hi : 0 ≤ i ∧ i ≤ 9999)
    (hj : 0 ≤ j ∧ j ≤ 9999) (hi' : i < 10 ^ width) (hj' : j < 10 ^ width) (s t : List Char) :
    strcmpLe (printLu width (toUnsignedLong i) ++ s) (printLu width (toUnsignedLong j) ++ t)
      = if i = j then strcmpLe s t else decide (i < j) := by
  have heq := toUnsignedLong_order hi hj
  have hi₁ := (toUnsignedLong_eq hi.1 hi.2).1
  have hj₁ := (toUnsignedLong_eq hj.1 hj.2).1
  have hpow : (10 : Int) ^ width = ((10 ^ width : Nat) : Int) := by simp
  rw [hpow] at hi' hj'
  rw [strcmpLe_printLu hw (by omega) (by omega)]
  simp only [heq.1, heq.2]

/-- A field decides unless both are equal. -/
theorem decide_field {i j : Int} {rest order : Bool} (hlt : i < j → order = true)
    (heq : i = j → rest = order) (hgt : j < i → order = false) :
    (if i = j then rest else decide (i < j)) = order := by
  rcases lt_trichotomy i j with h | h | h
  · rw [if_neg (Int.ne_of_lt h), decide_eq_true h, hlt h]
  · rw [if_pos h, heq h]
  · rw [if_neg (Int.ne_of_gt h), decide_eq_false (Int.not_lt.mpr (Int.le_of_lt h)), hgt h]

theorem decide_before (h : u < v) (ha : a < 1000) :
    decide (u * 1000 + (a : Int) ≤ v * 1000 + b) = true :=
  decide_eq_true (by omega)

theorem decide_after (h : v < u) (hb : b < 1000) :
    decide (u * 1000 + (a : Int) ≤ v * 1000 + b) = false :=
  decide_eq_false (by omega)

/-- **The order of the texts is the order of the dates**, up to the year 9999. -/
theorem strcmpLe_printDateTime (hu : 0 ≤ year u ∧ year u ≤ 9999) (hv : 0 ≤ year v ∧ year v ≤ 9999)
    (ha : a < 1000) (hb : b < 1000) :
    strcmpLe (printDateTime (localTm u) a) (printDateTime (localTm v) b)
      = decide (u * 1000 + a ≤ v * 1000 + b) := by
  have hmu := month_bounds u
  have hmv := month_bounds v
  have hdu := monthday_bounds u
  have hdv := monthday_bounds v
  have hdu' := (monthLength_le_max (year u) (month u)).trans (maxMonthLength_le (month u))
  have hdv' := (monthLength_le_max (year v) (month v)).trans (maxMonthLength_le (month v))
  obtain ⟨hhu, hmiu, hsu⟩ := time_bounds u
  obtain ⟨hhv, hmiv, hsv⟩ := time_bounds v
  have hmilli : strcmpLe (printLu 4 a) (printLu 4 b) = decide (a ≤ b) := by
    have h : strcmpLe (printLu 4 a ++ []) (printLu 4 b ++ []) = _ :=
      strcmpLe_printLu (by omega) (by omega) (by omega) [] []
    rw [List.append_nil, List.append_nil] at h
    rw [h]
    by_cases hab : a = b
    · simp [hab, strcmpLe]
    · rw [if_neg hab]
      exact decide_eq_decide.mpr (by omega)
  unfold printDateTime
  simp only [localTm, Int.sub_add_cancel, List.append_assoc, List.cons_append]
  rw [strcmpLe_field (by omega) hu hv (by omega) (by omega), strcmpLe_cons,
    strcmpLe_field (by omega) ⟨by omega, by omega⟩ ⟨by omega, by omega⟩ (by omega) (by omega),
    strcmpLe_cons,
    strcmpLe_field (by omega) ⟨by omega, by omega⟩ ⟨by omega, by omega⟩ (by omega) (by omega),
    strcmpLe_cons,
    strcmpLe_field (by omega) ⟨by omega, by omega⟩ ⟨by omega, by omega⟩ (by omega) (by omega),
    strcmpLe_cons,
    strcmpLe_field (by omega) ⟨by omega, by omega⟩ ⟨by omega, by omega⟩ (by omega) (by omega),
    strcmpLe_cons,
    strcmpLe_field (by omega) ⟨by omega, by omega⟩ ⟨by omega, by omega⟩ (by omega) (by omega),
    strcmpLe_cons, hmilli]
  refine decide_field (fun h => decide_before (lt_of_year_lt h) ha) (fun hy => ?_)
    (fun h => decide_after (lt_of_year_lt h) hb)
  refine decide_field (fun h => decide_before (lt_of_month_lt hy h) ha) (fun hm => ?_)
    (fun h => decide_after (lt_of_month_lt hy.symm h) hb)
  refine decide_field (fun h => decide_before ?_ ha) (fun hd => ?_) (fun h => decide_after ?_ hb)
  · have hday := day_lt_of_monthday_lt hy hm h
    unfold day at hday
    omega
  · -- on one day the time of day decides
    have hday := day_eq_of_fields hy hm hd
    unfold day at hday
    refine decide_field (fun h => decide_before ?_ ha) (fun hh => ?_) (fun h => decide_after ?_ hb)
    · unfold hour at h; omega
    · refine decide_field (fun h => decide_before ?_ ha) (fun hmi => ?_) (fun h => decide_after ?_ hb)
      · unfold minute at h; unfold hour at hh; omega
      · refine decide_field (fun h => decide_before ?_ ha) (fun hs => ?_)
          (fun h => decide_after ?_ hb)
        · unfold second at h; unfold minute at hmi; unfold hour at hh; omega
        · have huv : u = v := by
            unfold second at hs; unfold minute at hmi; unfold hour at hh; omega
          rw [huv]
          exact decide_eq_decide.mpr (by omega)
        · unfold second at h; unfold minute at hmi; unfold hour at hh; omega
      · unfold minute at h; unfold hour at hh; omega
    · unfold hour at h; omega
  · have hday := day_lt_of_monthday_lt hy.symm hm.symm h
    unfold day at hday
    omega

end CatraLibraries
