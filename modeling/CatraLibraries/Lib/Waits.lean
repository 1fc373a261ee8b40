/-
# Waits that begin again

A system call waits for some time and can be interrupted; a loop then calls it again for what is
left.  All times are counted from the beginning of the loop, in milliseconds; what is asked of the
system call is in microseconds.
-/
import Mathlib.Data.List.Chain
import Mathlib.Tactic.Cases

namespace Waits

/-- The time that a system call is asked to wait. -/
inductive Timeout
  | micros (n : ℕ)
  | forever
  | invalid
  deriving DecidableEq, Repr

/-- How a system call ends; `ρ` is what it finds. -/
inductive Ending (ρ : Type)
  | interrupted
  | timedOut
  | ready (found : ρ)
  | failed (iErrno : ℤ)

/-- The end of a system call, and the clock there. -/
structure Return (τ ρ : Type) where
  now : τ
  ending : Ending ρ

variable {τ ρ Limit : Type}

/-- A loop that waits: what it asks for at a limit, and the limit after an interruption, or `none`
when it gives up. -/
structure Loop (Limit : Type) where
  ask : Limit → Timeout
  resume : Limit → ℕ → Option Limit

/-- What a loop does: the waits that it begins again, each with the time of the interruption before
it, and the last end of its system call. -/
structure Run (ρ : Type) where
  resumed : List (ℕ × Timeout)
  returned : Option (Return ℕ ρ)

/-- A loop from a limit on, where the system calls end in the given way. -/
def run (loop : Loop Limit) : Limit → List (Return ℕ ρ) → Run ρ
  | _, [] => ⟨[], none⟩
  | limit, r :: rs =>
    match r.ending with
    | .interrupted =>
      match loop.resume limit r.now with
      | none => ⟨[], some r⟩
      | some limit' =>
        let rest := run loop limit' rs
        ⟨(r.now, loop.ask limit') :: rest.resumed, rest.returned⟩
    | _ => ⟨[], some r⟩

/-- A system call that is asked to wait can end in this way after that time. -/
def Timeout.Admits : Timeout → ℕ → Ending ρ → Prop
  | .micros n, waited, .timedOut => n ≤ 1000 * waited
  | .forever, _, .timedOut => False
  | .invalid, _, .failed _ => True
  | .invalid, _, _ => False
  | _, _, _ => True

/-- The ends that the system calls of a loop can have: the clock does not go back, a call times out
only when it has waited as long as asked, and there are no more calls than the loop makes. -/
def Allowed (loop : Loop Limit) : Limit → ℕ → List (Return ℕ ρ) → Prop
  | _, _, [] => True
  | limit, since, r :: rs =>
    since ≤ r.now ∧ (loop.ask limit).Admits (r.now - since) r.ending ∧
      match r.ending with
      | .interrupted =>
        match loop.resume limit r.now with
        | none => rs = []
        | some limit' => Allowed loop limit' r.now rs
      | _ => rs = []

/-- The system call found nothing. -/
def Ending.IsIdle : Ending ρ → Prop
  | .interrupted | .timedOut => True
  | _ => False

/-- A run keeps to its time, in microseconds: a wait that begins again is for what is left of it, and
the loop ends without finding anything only when it is over. -/
structure Keeps (time : ℕ) (r : Run ρ) : Prop where
  resumed : ∀ p ∈ r.resumed, ∃ n, p.2 = .micros n ∧ n + 1000 * p.1 = time
  idle : ∀ e, r.returned = some e → e.ending.IsIdle → time ≤ 1000 * e.now

/-- The times of the interruptions. -/
def interruptions (rs : List (Return ℕ ρ)) : List ℕ :=
  rs.filterMap fun r => match r.ending with
    | .interrupted => some r.now
    | _ => none

/-- An interruption that follows one after the beginning comes when the time is over. -/
def Paced (time : ℕ) (times : List ℕ) : Prop :=
  times.IsChain fun t t' => t = 0 ∨ time ≤ 1000 * t'

/-! ### Two loops that do the same -/

/-- One loop does at `f limit` what the other does at `limit`, for the limits below a bound. -/
structure Embeds (loop : Loop ℕ) (loop' : Loop Limit) (bound : ℕ) (f : ℕ → Limit) : Prop where
  ask : ∀ n, n < bound → loop'.ask (f n) = loop.ask n
  resume : ∀ n t, n < bound → loop'.resume (f n) t = (loop.resume n t).map f
  bounded : ∀ n t n', n < bound → loop.resume n t = some n' → n' < bound

variable {loop : Loop ℕ} {loop' : Loop Limit} {bound : ℕ} {f : ℕ → Limit}

theorem Embeds.run_eq (h : Embeds loop loop' bound f) (rs : List (Return ℕ ρ)) {n : ℕ}
    (hn : n < bound) : run loop' (f n) rs = run loop n rs := by
  induction rs generalizing n with
  | nil => rfl
  | cons r rs ih =>
    obtain ⟨now, ending⟩ := r
    cases ending with
    | interrupted =>
      unfold run
      dsimp only
      rw [h.resume n now hn]
      cases hresume : loop.resume n now with
      | none => rfl
      | some n' =>
        have hn' := h.bounded n now n' hn hresume
        dsimp only [Option.map_some]
        rw [ih hn', h.ask n' hn']
    | _ => rfl

theorem Embeds.allowed_iff (h : Embeds loop loop' bound f) (rs : List (Return ℕ ρ)) {n since : ℕ}
    (hn : n < bound) : Allowed loop' (f n) since rs ↔ Allowed loop n since rs := by
  induction rs generalizing n since with
  | nil => exact Iff.rfl
  | cons r rs ih =>
    obtain ⟨now, ending⟩ := r
    unfold Allowed
    rw [h.ask n hn]
    cases ending with
    | interrupted =>
      dsimp only
      rw [h.resume n now hn]
      cases hresume : loop.resume n now with
      | none => exact Iff.rfl
      | some n' =>
        dsimp only [Option.map_some]
        rw [ih (h.bounded n now n' hn hresume)]
    | _ => exact Iff.rfl

/-! ### The loop that shortens its limit -/

/-- The loop whose limit, in milliseconds, is shortened at each interruption by the time since the
beginning. -/
def shortening : Loop ℕ where
  ask limit := .micros (1000 * limit)
  resume limit t := if limit ≤ t then none else some (limit - t)

theorem keeps_waiting (time : ℕ) : Keeps time (⟨[], none⟩ : Run ρ) :=
  ⟨fun _ h => absurd h List.not_mem_nil, fun _ h => absurd h nofun⟩

theorem keeps_returned_iff (time : ℕ) (e : Return ℕ ρ) :
    Keeps time (⟨[], some e⟩ : Run ρ) ↔ (e.ending.IsIdle → time ≤ 1000 * e.now) := by
  constructor
  · intro h
    exact h.idle e rfl
  · intro h
    refine ⟨fun _ hp => absurd hp List.not_mem_nil, fun e' he' => ?_⟩
    cases he'
    exact h

theorem keeps_resumed_iff (time t : ℕ) (asked : Timeout) (r : Run ρ) :
    Keeps time (⟨(t, asked) :: r.resumed, r.returned⟩ : Run ρ) ↔
      (∃ n, asked = .micros n ∧ n + 1000 * t = time) ∧ Keeps time r := by
  constructor
  · intro h
    exact ⟨h.resumed (t, asked) List.mem_cons_self,
      fun p hp => h.resumed p (List.mem_cons_of_mem _ hp), h.idle⟩
  · rintro ⟨hasked, h⟩
    refine ⟨fun p hp => ?_, h.idle⟩
    rcases List.mem_cons.mp hp with rfl | hp
    · exact hasked
    · exact h.resumed p hp

/-- The wait that is going on is for what is left since the interruption before it.  It stays so
when that interruption came at the beginning, since then the limit has not been shortened. -/
theorem shortening_keeps_iff (rs : List (Return ℕ ρ)) {total limit since : ℕ}
    (hlimit : limit + since = total) (hallowed : Allowed shortening limit since rs) :
    Keeps (1000 * total) (run shortening limit rs) ↔
      Paced (1000 * total) (since :: interruptions rs) := by
  induction rs generalizing limit since with
  | nil => exact iff_of_true (keeps_waiting _) (List.IsChain.singleton _)
  | cons r rs ih =>
    obtain ⟨now, ending⟩ := r
    obtain ⟨hsince, hadmits, hrest⟩ := hallowed
    cases ending with
    | interrupted =>
      have htimes : interruptions (⟨now, .interrupted⟩ :: rs : List (Return ℕ ρ)) =
          now :: interruptions rs := rfl
      unfold Paced at ih ⊢
      rw [htimes, List.isChain_cons_cons]
      dsimp only [shortening] at hrest
      unfold run
      dsimp only [shortening]
      by_cases hover : limit ≤ now
      · rw [if_pos hover] at hrest ⊢
        obtain rfl : rs = [] := hrest
        rw [keeps_returned_iff]
        constructor
        · intro h
          exact ⟨Or.inr (h trivial), List.IsChain.singleton _⟩
        · rintro ⟨hpaced, -⟩ -
          rcases hpaced with rfl | hpaced
          · exact Nat.mul_le_mul_left _ (hlimit ▸ hover)
          · exact hpaced
      · rw [if_neg hover] at hrest ⊢
        dsimp only at hrest ⊢
        rw [keeps_resumed_iff]
        by_cases hbegin : since = 0
        · rw [hbegin, Nat.add_zero] at hlimit
          have hleft : limit - now + now = total := by omega
          rw [← ih hleft hrest]
          constructor
          · rintro ⟨-, h⟩
            exact ⟨Or.inl hbegin, h⟩
          · rintro ⟨-, h⟩
            exact ⟨⟨_, rfl, by omega⟩, h⟩
        · -- the limit lacks the time of the interruption before
          refine iff_of_false ?_ ?_
          · rintro ⟨⟨n, hn, htotal⟩, -⟩
            have hasked := Timeout.micros.inj hn
            omega
          · rintro ⟨hpaced, -⟩
            rcases hpaced with hpaced | hpaced
            · exact hbegin hpaced
            · omega
    | timedOut =>
      obtain rfl : rs = [] := hrest
      have hwaited : 1000 * limit ≤ 1000 * (now - since) := hadmits
      have hnow : since ≤ now := hsince
      have hover : 1000 * total ≤ 1000 * now := by omega
      exact iff_of_true ((keeps_returned_iff _ _).mpr fun _ => hover) (List.IsChain.singleton _)
    | ready found =>
      obtain rfl : rs = [] := hrest
      exact iff_of_true ((keeps_returned_iff _ _).mpr nofun) (List.IsChain.singleton _)
    | failed iErrno =>
      obtain rfl : rs = [] := hrest
      exact iff_of_true ((keeps_returned_iff _ _).mpr nofun) (List.IsChain.singleton _)

/-- **The loop that shortens its limit keeps to its time** just when an interruption that follows one
after the beginning comes when the time is over. -/
theorem shortening_keeps_iff_paced {rs : List (Return ℕ ρ)} {total : ℕ}
    (hallowed : Allowed shortening total 0 rs) :
    Keeps (1000 * total) (run shortening total rs) ↔
      Paced (1000 * total) (interruptions rs) := by
  rw [shortening_keeps_iff rs (Nat.add_zero total) hallowed]
  unfold Paced
  constructor
  · exact List.IsChain.tail
  · intro h
    apply h.cons
    intro t _
    exact Or.inl rfl

end Waits
