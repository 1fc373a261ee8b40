/-
# Looking for a pattern in a stream

A search that takes one symbol after the other off a stream, and ends when what it has seen ends with
the pattern.  It may also give up, when it has seen a number of symbols in vain.

A search that does not give up finds a pattern exactly when it occurs, and stops at the end of its
first occurrence (`watch_found_iff`, `endsFirst_of_found`).  A search that gives up at the length of
the pattern finds it at the beginning of the stream only (`watch_gaveUp_iff`).
-/
import Mathlib.Data.List.Infix

namespace StreamSearch

variable {α : Type*} [DecidableEq α]

inductive Ending
  | found
  | gaveUp
  | waiting
  deriving DecidableEq, Repr

/-- How the search ends behind the symbols `seen`, and the symbols that it takes off the stream. -/
def watch (limit : Option ℕ) (pat seen : List α) : List α → Ending × List α
  | [] => (.waiting, [])
  | a :: stream =>
    if pat <:+ seen ++ [a] then (.found, [a])
    else if limit.any (· ≤ seen.length + 1) then (.gaveUp, [a])
    else
      let rest := watch limit pat (seen ++ [a]) stream
      (rest.1, a :: rest.2)

/-- The symbols `taken` reach to the end of the first occurrence of `pat`. -/
def EndsFirst (pat stream taken : List α) : Prop :=
  ∃ before after, stream = before ++ pat ++ after ∧ taken = before ++ pat
    ∧ ∀ before', before' ++ pat <+: stream → before.length ≤ before'.length

variable {limit : Option ℕ} {pat : List α}

section

attribute [local simp] watch

/-- What was taken when the pattern is found: it ends with the pattern, and no shorter part does. -/
theorem watch_found (stream seen : List α) (h : (watch limit pat seen stream).1 = .found) :
    (watch limit pat seen stream).2 <+: stream
      ∧ pat <:+ seen ++ (watch limit pat seen stream).2
      ∧ ∀ p, p <+: stream → p ≠ [] → pat <:+ seen ++ p →
        (watch limit pat seen stream).2.length ≤ p.length := by
  induction stream generalizing seen with
  | nil => cases h
  | cons a stream ih =>
    rw [watch] at h ⊢
    split
    · next hsuffix =>
      refine ⟨⟨stream, rfl⟩, hsuffix, ?_⟩
      intro p _ hne _
      exact List.length_pos_iff.mpr hne
    · next hsuffix =>
      rw [if_neg hsuffix] at h
      split
      · next hgives => rw [if_pos hgives] at h; cases h
      · next hgives =>
        rw [if_neg hgives] at h
        obtain ⟨hstart, hends, hfirst⟩ := ih (seen ++ [a]) h
        refine ⟨List.prefix_cons_inj a |>.mpr hstart, ?_, ?_⟩
        · rwa [List.append_assoc] at hends
        · intro p hp hne hpat
          obtain ⟨b, p, rfl⟩ := List.exists_cons_of_ne_nil hne
          obtain ⟨rfl, htail⟩ := List.cons_prefix_cons.mp hp
          refine Nat.succ_le_succ (hfirst p htail ?_ ?_)
          · rintro rfl
            exact hsuffix hpat
          · rwa [List.append_assoc]

end

/-- While the search waits, nothing ended with the pattern. -/
theorem watch_waiting (stream seen : List α) (h : (watch limit pat seen stream).1 = .waiting) :
    (∀ p, p <+: stream → p ≠ [] → ¬ pat <:+ seen ++ p)
      ∧ ∀ n ∈ limit, seen.length < n → seen.length + stream.length < n := by
  induction stream generalizing seen with
  | nil =>
    refine ⟨?_, fun n _ hn => hn⟩
    intro p hp hne
    exact absurd (List.prefix_nil.mp hp) hne
  | cons a stream ih =>
    rw [watch] at h
    split at h
    · cases h
    · next hsuffix =>
      split at h
      · cases h
      · next hgives =>
        obtain ⟨hnone, hlimit⟩ := ih (seen ++ [a]) h
        constructor
        · intro p hp hne hpat
          obtain ⟨b, p, rfl⟩ := List.exists_cons_of_ne_nil hne
          obtain ⟨rfl, htail⟩ := List.cons_prefix_cons.mp hp
          by_cases hnil : p = []
          · rw [hnil] at hpat
            exact hsuffix hpat
          · exact hnone p htail hnil (by rwa [List.append_assoc])
        · intro n hn hlt
          have hroom : seen.length + 1 < n := by
            have hnot : ¬ n ≤ seen.length + 1 := by
              intro hle
              exact hgives ((Option.any_eq_true _ _).mpr ⟨n, hn, decide_eq_true hle⟩)
            omega
          have hrest := hlimit n hn (by rw [List.length_append]; exact hroom)
          rw [List.length_append, List.length_singleton] at hrest
          rw [List.length_cons]
          omega

/-- A search gives up at its limit only. -/
theorem watch_gaveUp (stream seen : List α) (h : (watch limit pat seen stream).1 = .gaveUp) :
    ∃ n ∈ limit, ∃ p, p <+: stream ∧ n ≤ seen.length + p.length
      ∧ ∀ q, q <+: p → q ≠ [] → ¬ pat <:+ seen ++ q := by
  induction stream generalizing seen with
  | nil => cases h
  | cons a stream ih =>
    rw [watch] at h
    split at h
    · cases h
    · next hsuffix =>
      split at h
      · next hgives =>
        obtain ⟨n, hn, hle⟩ := (Option.any_eq_true _ _).mp hgives
        refine ⟨n, hn, [a], ⟨stream, rfl⟩, of_decide_eq_true hle, ?_⟩
        intro q hq hne hpat
        obtain ⟨b, q, rfl⟩ := List.exists_cons_of_ne_nil hne
        obtain ⟨rfl, htail⟩ := List.cons_prefix_cons.mp hq
        rw [List.prefix_nil.mp htail] at hpat
        exact hsuffix hpat
      · obtain ⟨n, hn, p, hp, hle, hnone⟩ := ih (seen ++ [a]) h
        refine ⟨n, hn, a :: p, List.prefix_cons_inj a |>.mpr hp, ?_, ?_⟩
        · rw [List.length_append, List.length_singleton] at hle
          rw [List.length_cons]
          omega
        · intro q hq hne hpat
          obtain ⟨b, q, rfl⟩ := List.exists_cons_of_ne_nil hne
          obtain ⟨rfl, htail⟩ := List.cons_prefix_cons.mp hq
          by_cases hnil : q = []
          · rw [hnil] at hpat
            exact hsuffix hpat
          · exact hnone q htail hnil (by rwa [List.append_assoc])

/-- A search with a limit takes no more symbols than that before it finds the pattern. -/
theorem length_watch_found {n : ℕ} (stream seen : List α) (hlt : seen.length < n)
    (h : (watch (some n) pat seen stream).1 = .found) :
    seen.length + (watch (some n) pat seen stream).2.length ≤ n := by
  induction stream generalizing seen with
  | nil => cases h
  | cons a stream ih =>
    rw [watch] at h ⊢
    split
    · exact hlt
    · next hsuffix =>
      rw [if_neg hsuffix] at h
      split
      · next hgives => rw [if_pos hgives] at h; cases h
      · next hgives =>
        rw [if_neg hgives] at h
        have hroom : seen.length + 1 < n := by
          simpa using hgives
        have hrest := ih (seen ++ [a]) (by rw [List.length_append]; exact hroom) h
        rw [List.length_append, List.length_singleton] at hrest
        rw [List.length_cons]
        omega

/-! ### From the beginning of a stream -/

/-- What was taken reaches to the end of the first occurrence. -/
theorem endsFirst_of_found (hpat : pat ≠ []) {stream : List α}
    (h : (watch limit pat [] stream).1 = .found) :
    EndsFirst pat stream (watch limit pat [] stream).2 := by
  obtain ⟨⟨after, hstream⟩, ⟨before, hends⟩, hfirst⟩ := watch_found stream [] h
  rw [List.nil_append] at hends
  refine ⟨before, after, ?_, hends.symm, ?_⟩
  · rw [hends, hstream]
  · intro before' hbefore'
    have hle := hfirst (before' ++ pat) hbefore' (List.append_ne_nil_of_right_ne_nil _ hpat)
      ⟨before', rfl⟩
    rw [← hends, List.length_append, List.length_append] at hle
    omega

/-- Without a limit the search does not give up. -/
theorem watch_ne_gaveUp (seen stream : List α) :
    (watch none pat seen stream).1 ≠ .gaveUp := by
  intro h
  obtain ⟨n, hn, -⟩ := watch_gaveUp stream seen h
  cases hn

/-- **A search that does not give up** finds the pattern exactly when it occurs. -/
theorem watch_found_iff (hpat : pat ≠ []) {stream : List α}
    (hkeeps : (watch limit pat [] stream).1 ≠ .gaveUp) :
    (watch limit pat [] stream).1 = .found ↔ pat <:+: stream := by
  constructor
  · intro h
    obtain ⟨hstart, hsuffix, -⟩ := watch_found stream [] h
    exact hsuffix.isInfix.trans hstart.isInfix
  · rintro ⟨before, after, rfl⟩
    cases hend : (watch limit pat [] (before ++ pat ++ after)).1 with
    | found => rfl
    | gaveUp => exact absurd hend hkeeps
    | waiting =>
      have hnone := (watch_waiting _ [] hend).1 (before ++ pat) ⟨after, rfl⟩
        (List.append_ne_nil_of_right_ne_nil _ hpat)
      exact absurd ⟨before, rfl⟩ hnone

/-- **A search that gives up at the length of the pattern** does so unless the stream is shorter, or
begins with the pattern. -/
theorem watch_gaveUp_iff (hpat : pat ≠ []) (stream : List α) :
    (watch (some pat.length) pat [] stream).1 = .gaveUp
      ↔ ¬ (stream.length < pat.length ∨ pat <+: stream) := by
  have hpos : 0 < pat.length := List.length_pos_iff.mpr hpat
  constructor
  · rintro h (hshort | hstarts)
    · obtain ⟨n, hn, p, hp, hle, -⟩ := watch_gaveUp stream [] h
      obtain rfl := Option.some.inj hn
      have := hp.length_le
      simp only [List.length_nil] at hle
      omega
    · obtain ⟨n, hn, p, hp, hle, hnone⟩ := watch_gaveUp stream [] h
      obtain rfl := Option.some.inj hn
      have hstart : pat <+: p :=
        List.prefix_of_prefix_length_le hstarts hp (by simpa using hle)
      exact hnone pat hstart hpat (List.suffix_refl pat)
  · intro hnot
    obtain ⟨hlong, hstarts⟩ := not_or.mp hnot
    cases hend : (watch (some pat.length) pat [] stream).1 with
    | gaveUp => rfl
    | found =>
      obtain ⟨before, after, rfl, htaken, -⟩ := endsFirst_of_found hpat hend
      have hle := length_watch_found _ [] hpos hend
      rw [htaken, List.length_append, List.length_nil] at hle
      obtain rfl : before = [] := List.length_eq_zero_iff.mp (by omega)
      exact absurd ⟨after, rfl⟩ hstarts
    | waiting =>
      have hlt := (watch_waiting stream [] hend).2 pat.length rfl hpos
      exact absurd (by simpa using hlt) hlong

end StreamSearch
