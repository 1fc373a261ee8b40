/-
# Waiting for a text

`SocketImpl::waitForBuffer` reads one byte after the other into a window of the length of the text and
a NUL, and looks for the text in it with `strstr`.  While the window is not full a byte goes behind the
bytes in it; afterwards the window is moved down by one byte, and the next byte goes to its end.

The move is a `memcpy` from the second byte of the window to its first.  For a text of three bytes or
more the two blocks overlap, and a `memcpy` has no defined result then (a `memmove`, as `FileIO` has,
would have one).  The method does what it is for with texts of at most two bytes, or when the window
never moves (`findsFirst_iff`).
-/
import CatraLibraries.Lib.CString
import CatraLibraries.Lib.StreamSearch
import CatraLibraries.Socket.TimedLoop

namespace CatraLibraries

namespace SocketImpl

open Memory CString Substring StreamSearch

/-! ### The method -/

/-- `pBufferRead` and `lBufferReadIndex`. -/
structure Window where
  pBufferRead : Cells UInt8
  lBufferReadIndex : ℕ
  deriving DecidableEq, Repr

/-- What moves the window. -/
inductive Move
  | memcpy
  | memmove
  deriving DecidableEq, Repr

/-- A computation on memory in a loop. -/
def orFault {α : Type} : Except Fault α → Except LoopEnd α
  | .ok a => .ok a
  | .error f => .error (.fault f)

/-- The `n` bytes from the second one on, moved to the first. -/
def Move.apply (move : Move) (buffer : Cells UInt8) (n : ℕ) : Except LoopEnd (Cells UInt8) :=
  if move = .memcpy ∧ 1 < n then .error .overlap else orFault (copyDown buffer 0 1 n)

/-- `read` of one byte, which clears its place first. -/
def putByte (w : Window) (b : UInt8) : Except Fault (Cells UInt8) := do
  let buffer ← store w.pBufferRead w.lBufferReadIndex 0
  store buffer w.lBufferReadIndex b

/-- The window behind a byte that did not complete the text. -/
def moveOn (move : Move) (lBufferToWaitLength lBufferReadIndex : ℕ) (buffer : Cells UInt8) :
    Except LoopEnd Window :=
  if lBufferToWaitLength ≤ lBufferReadIndex + 1 then do
    let buffer ← move.apply buffer (lBufferToWaitLength - 1)
    return ⟨buffer, lBufferReadIndex⟩
  else .ok ⟨buffer, lBufferReadIndex + 1⟩

/-- What the loop does with a byte. -/
def windowByte (move : Move) (pBufferToWait : List UInt8) (w : Window) (b : UInt8) :
    Except LoopEnd Window := do
  let buffer ← orFault (putByte w b)
  let found ← orFault (strstr buffer pBufferToWait)
  if found.isSome then .error .finished
  else moveOn move pBufferToWait.length w.lBufferReadIndex buffer

/-- The window at the start. -/
def Window.clear (pBufferToWait : List UInt8) : Window :=
  ⟨List.replicate (pBufferToWait.length + 1) (some 0), 0⟩

/-- The method with one of the two ways to move the window. -/
def waitForBufferWith (move : Move) (pBufferToWait : List UInt8)
    (lTimeoutInSeconds lAdditionalTimeoutInMicroSeconds : ℤ) (now : Option Timeval)
    (turns : List Turn) : LoopRun :=
  timedCall lTimeoutInSeconds lAdditionalTimeoutInMicroSeconds now (windowByte move pBufferToWait)
    (.clear pBufferToWait) turns

/-- `waitForBuffer`. -/
def waitForBuffer := waitForBufferWith .memcpy

/-! ### A byte -/

/-- The last `n` elements. -/
def lastOf {α : Type} (n : ℕ) (s : List α) : List α := s.drop (s.length - n)

theorem length_lastOf {α : Type} (n : ℕ) (s : List α) : (lastOf n s).length = min n s.length := by
  unfold lastOf
  rw [List.length_drop]
  omega

/-- The window behind the bytes `seen`: the last of them, one short of the text, in front; then a
place for the next byte, and zeros. -/
structure Shows (pat seen : List UInt8) (w : Window) : Prop where
  index : w.lBufferReadIndex = (lastOf (pat.length - 1) seen).length
  cells : ∃ c, w.pBufferRead = (lastOf (pat.length - 1) seen).map some
    ++ c :: List.replicate (pat.length - w.lBufferReadIndex) (some 0)

theorem clear_shows (pat : List UInt8) : Shows pat [] (.clear pat) where
  index := by simp [Window.clear, lastOf]
  cells := ⟨some 0, by simp [Window.clear, lastOf, List.replicate_succ]⟩

/-- The text is in the window exactly when the bytes end with it. -/
theorem infix_window_iff {pat seen : List UInt8} (hpat : pat ≠ []) (hnul : 0 ∉ pat) (b : UInt8) :
    pat <:+: visible (lastOf (pat.length - 1) seen ++ [b]) ↔ pat <:+ seen ++ [b] := by
  have hpos : 0 < pat.length := List.length_pos_iff.mpr hpat
  have hlen : (lastOf (pat.length - 1) seen ++ [b]).length ≤ pat.length := by
    rw [List.length_append, length_lastOf, List.length_singleton]
    omega
  have hsuffix : lastOf (pat.length - 1) seen ++ [b] <:+ seen ++ [b] := by
    obtain ⟨before, h⟩ := List.drop_suffix (seen.length - (pat.length - 1)) seen
    exact ⟨before, by rw [← List.append_assoc, lastOf, h]⟩
  constructor
  · intro h
    have hinside := h.trans (visible_isPrefixOf _).isInfix
    rw [hinside.eq_of_length_le hlen]
    exact hsuffix
  · intro h
    have hlong := h.length_le
    have hends : pat <:+ lastOf (pat.length - 1) seen ++ [b] := by
      refine List.suffix_of_suffix_length_le h hsuffix ?_
      simp only [List.length_append, length_lastOf, List.length_singleton] at hlong ⊢
      omega
    have heq : pat = lastOf (pat.length - 1) seen ++ [b] := hends.eq_of_length_le hlen
    rw [← heq, visible_eq_self hnul]

/-- A move of the window, where it has a defined result: its bytes but the first are in front. -/
theorem apply_eq {move : Move} {body : List UInt8} (x : UInt8)
    (hmove : ¬ (move = .memcpy ∧ 1 < body.length)) (post : Cells UInt8) :
    ∃ c, move.apply ((x :: body).map some ++ post) body.length
      = .ok (body.map some ++ c :: post) := by
  obtain ⟨c, hc⟩ : ∃ c, ([some x] ++ body.map some).drop body.length = [c] := by
    apply List.length_eq_one_iff.mp
    rw [List.length_drop, List.length_append, List.length_map, List.length_singleton]
    omega
  have hcopy := copyDown_append body [] [some x] post
  rw [hc] at hcopy
  refine ⟨c, ?_⟩
  unfold Move.apply
  rw [if_neg hmove]
  show orFault (copyDown (some x :: (body.map some ++ post)) 0 1 body.length) = _
  simp only [List.nil_append, List.length_nil, List.length_singleton, List.cons_append,
    Nat.zero_add] at hcopy
  rw [hcopy]
  simp [orFault]

/-- The cells of the window with the next byte. -/
def withByte (pat seen : List UInt8) (b : UInt8) : Cells UInt8 :=
  (lastOf (pat.length - 1) seen ++ [b]).map some
    ++ some 0 :: List.replicate (pat.length - (lastOf (pat.length - 1) seen).length - 1) (some 0)

theorem putByte_eq {pat seen : List UInt8} {w : Window} (hpat : pat ≠ []) (hw : Shows pat seen w)
    (b : UInt8) : putByte w b = .ok (withByte pat seen b) := by
  have hpos : 0 < pat.length := List.length_pos_iff.mpr hpat
  have hlast := length_lastOf (pat.length - 1) seen
  obtain ⟨hindex, c, hcells⟩ := hw
  -- the byte goes behind the last ones, and a zero follows it
  have hzero : List.replicate (pat.length - w.lBufferReadIndex) (some (0 : UInt8))
      = some 0 :: List.replicate (pat.length - w.lBufferReadIndex - 1) (some 0) := by
    rw [← List.replicate_succ]
    congr 1
    omega
  have hplace : w.lBufferReadIndex = ((lastOf (pat.length - 1) seen).map some).length := by
    rw [hindex, List.length_map]
  unfold putByte
  rw [hcells, hzero, hplace, store_append, ok_bind, store_append]
  simp [withByte]

/-- The text of the window, as `strstr` sees it. -/
theorem strstr_withByte {pat : List UInt8} (hnul : 0 ∉ pat) (seen : List UInt8) (b : UInt8) :
    strstr (withByte pat seen b) pat
      = .ok (findSub pat (visible (lastOf (pat.length - 1) seen ++ [b]))) := by
  have hterminated : Terminated (withByte pat seen b) (lastOf (pat.length - 1) seen ++ [b]) :=
    ⟨_, rfl⟩
  exact hterminated.holds_visible.strstr_eq hnul

theorem lastOf_eq_self {α : Type} {n : ℕ} {s : List α} (h : s.length ≤ n) : lastOf n s = s := by
  rw [lastOf, Nat.sub_eq_zero_of_le h, List.drop_zero]

/-- With one more the first of the last ones goes. -/
theorem lastOf_concat {α : Type} {n : ℕ} {s body : List α} {a x : α}
    (h : lastOf n s ++ [a] = x :: body) (hbody : body.length = n) : lastOf n (s ++ [a]) = body := by
  have hlast := length_lastOf n s
  have hlength := congrArg List.length h
  rw [List.length_append, List.length_singleton, List.length_cons] at hlength
  have htail := congrArg (List.drop 1) h
  rw [lastOf, ← List.drop_append_of_le_length (by omega), List.drop_drop, List.drop_one,
    List.tail_cons] at htail
  rw [← htail, lastOf, List.length_append, List.length_singleton]
  congr 1
  omega

/-- A full window moves down by one place, if it can. -/
theorem moveOn_full {move : Move} {pat seen : List UInt8} (hpat : pat ≠ []) (b : UInt8)
    (hmove : ¬ (move = .memcpy ∧ 2 < pat.length))
    (hfull : pat.length ≤ (lastOf (pat.length - 1) seen).length + 1) :
    ∃ w', moveOn move pat.length (lastOf (pat.length - 1) seen).length (withByte pat seen b)
        = .ok w' ∧ Shows pat (seen ++ [b]) w' := by
  have hpos : 0 < pat.length := List.length_pos_iff.mpr hpat
  have hlast := length_lastOf (pat.length - 1) seen
  obtain ⟨x, body, hcons⟩ := List.exists_cons_of_ne_nil
    (List.append_ne_nil_of_right_ne_nil (lastOf (pat.length - 1) seen) (List.cons_ne_nil b []))
  have hbody : body.length = pat.length - 1 := by
    have hlength := congrArg List.length hcons
    rw [List.length_append, List.length_singleton, List.length_cons] at hlength
    omega
  have hnext := lastOf_concat hcons hbody
  have hdefined : ¬ (move = .memcpy ∧ 1 < body.length) := by
    rintro ⟨hcopy, hlong⟩
    exact hmove ⟨hcopy, by omega⟩
  -- behind the last byte there is only the NUL
  have hlast' : (lastOf (pat.length - 1) seen).length = pat.length - 1 := by omega
  have hnone : pat.length - (pat.length - 1) - 1 = 0 := by omega
  have hone : pat.length - (pat.length - 1) = 1 := by omega
  obtain ⟨c, hmoved⟩ := apply_eq x hdefined [some 0]
  rw [hbody] at hmoved
  rw [moveOn, if_pos hfull, withByte, hlast', hnone, List.replicate_zero, hcons, hmoved]
  refine ⟨_, rfl, ?_, c, ?_⟩
  · rw [hnext, hbody]
  · rw [hnext]
    show _ = body.map some ++ c :: List.replicate (pat.length - (pat.length - 1)) (some 0)
    rw [hone]
    rfl

/-- The window moves on, if it need not move down or can. -/
theorem moveOn_eq {move : Move} {pat seen : List UInt8} (hpat : pat ≠ []) (b : UInt8)
    (hmove : ¬ (move = .memcpy ∧ 2 < pat.length) ∨ seen.length + 1 < pat.length) :
    ∃ w', moveOn move pat.length (lastOf (pat.length - 1) seen).length (withByte pat seen b)
        = .ok w' ∧ Shows pat (seen ++ [b]) w' := by
  have hlast := length_lastOf (pat.length - 1) seen
  by_cases hfull : pat.length ≤ (lastOf (pat.length - 1) seen).length + 1
  · exact moveOn_full hpat b (hmove.resolve_right (by omega)) hfull
  · have hlength : (seen ++ [b]).length = seen.length + 1 := List.length_append
    have hseen : lastOf (pat.length - 1) seen = seen := lastOf_eq_self (by omega)
    have hnext : lastOf (pat.length - 1) (seen ++ [b]) = seen ++ [b] := lastOf_eq_self (by omega)
    rw [moveOn, if_neg hfull]
    refine ⟨_, rfl, ?_, some 0, ?_⟩
    · rw [hnext, hseen, hlength]
    · rw [hnext, withByte, hseen]
      congr 2

/-- The window cannot be moved down. -/
theorem moveOn_overlap {pat seen : List UInt8} (hlong : 2 < pat.length)
    (hfull : pat.length ≤ seen.length + 1) (buffer : Cells UInt8) :
    moveOn .memcpy pat.length (lastOf (pat.length - 1) seen).length buffer = .error .overlap := by
  have hlast := length_lastOf (pat.length - 1) seen
  unfold moveOn Move.apply
  rw [if_pos (by omega), if_pos ⟨rfl, by omega⟩]
  rfl

/-! ### Runs -/

/-- The bytes that the turns offer. -/
def streamOfTurns (turns : List Turn) : List UInt8 := turns.flatMap Turn.taken

/-- No call fails in a turn, and the time is not over behind it. -/
def Untroubled (start : Timeval) (timeout : Timeout) (turn : Turn) : Prop :=
  turn.ready ≠ .failed ∧ turn.ready ≠ .readFailed
    ∧ ∃ now, turn.now = some now ∧ timeLeft start now timeout ≠ none

/-- After how many bytes in vain the window has to move, where that has no defined result. -/
def Move.limit (move : Move) (lBufferToWaitLength : ℕ) : Option ℕ :=
  if move = .memcpy ∧ 2 < lBufferToWaitLength then some lBufferToWaitLength else none

/-- How the loop ends when a search does. -/
def endOf : Ending → LoopEnd
  | .found => .finished
  | .gaveUp => .overlap
  | .waiting => .waiting

/-- **A byte in the window is a step of the search.** -/
theorem windowByte_spec {move : Move} {pat seen : List UInt8} {w : Window} (hpat : pat ≠ [])
    (hnul : 0 ∉ pat) (hw : Shows pat seen w) (b : UInt8) (rest : List UInt8) :
    (∃ e, windowByte move pat w b = .error (endOf e)
        ∧ watch (move.limit pat.length) pat seen (b :: rest) = (e, [b]))
      ∨ ∃ w', windowByte move pat w b = .ok w' ∧ Shows pat (seen ++ [b]) w'
        ∧ watch (move.limit pat.length) pat seen (b :: rest)
          = ((watch (move.limit pat.length) pat (seen ++ [b]) rest).1,
              b :: (watch (move.limit pat.length) pat (seen ++ [b]) rest).2) := by
  have hbyte : windowByte move pat w b
      = if pat <:+ seen ++ [b] then .error .finished
        else moveOn move pat.length (lastOf (pat.length - 1) seen).length
          (withByte pat seen b) := by
    unfold windowByte
    rw [putByte_eq hpat hw, hw.index]
    show (orFault (strstr (withByte pat seen b) pat) >>= _) = _
    rw [strstr_withByte hnul]
    show (if (findSub pat (visible (lastOf (pat.length - 1) seen ++ [b]))).isSome then _ else _) = _
    simp only [findSub_isSome_iff, infix_window_iff hpat hnul]
  rw [hbyte, watch]
  by_cases hfound : pat <:+ seen ++ [b]
  · rw [if_pos hfound, if_pos hfound]
    exact Or.inl ⟨.found, rfl, rfl⟩
  · rw [if_neg hfound, if_neg hfound]
    by_cases hstuck : (move = .memcpy ∧ 2 < pat.length) ∧ pat.length ≤ seen.length + 1
    · obtain ⟨⟨rfl, hlong⟩, hfull⟩ := hstuck
      have hlimit : (Move.memcpy.limit pat.length).any (· ≤ seen.length + 1) = true := by
        rw [Move.limit, if_pos ⟨rfl, hlong⟩]
        exact decide_eq_true hfull
      rw [moveOn_overlap hlong hfull, if_pos hlimit]
      exact Or.inl ⟨.gaveUp, rfl, rfl⟩
    · have hmove : ¬ (move = .memcpy ∧ 2 < pat.length) ∨ seen.length + 1 < pat.length := by
        rcases not_and_or.mp hstuck with hmove | hshort
        · exact Or.inl hmove
        · exact Or.inr (Nat.lt_of_not_le hshort)
      have hlimit : ¬ (move.limit pat.length).any (· ≤ seen.length + 1) = true := by
        unfold Move.limit
        rcases hmove with hmove | hshort
        · rw [if_neg hmove]
          exact Bool.false_ne_true
        · split
          · simpa using hshort
          · exact Bool.false_ne_true
      obtain ⟨w', hmoved, hw'⟩ := moveOn_eq hpat b hmove
      rw [hmoved, if_neg hlimit]
      exact Or.inr ⟨w', rfl, hw', rfl⟩

/-- **The loop is a search in the stream.** -/
theorem timedLoop_window {move : Move} {pat : List UInt8} {start : Timeval} {timeout : Timeout}
    (hpat : pat ≠ []) (hnul : 0 ∉ pat) {turns : List Turn}
    (hturns : ∀ turn ∈ turns, Untroubled start timeout turn) {seen : List UInt8} {w : Window}
    (hw : Shows pat seen w) {current : Timeval} (hleft : timeLeft start current timeout ≠ none) :
    (timedLoop start timeout (windowByte move pat) w current turns).ending
        = endOf (watch (move.limit pat.length) pat seen (streamOfTurns turns)).1
      ∧ (timedLoop start timeout (windowByte move pat) w current turns).taken
        = (watch (move.limit pat.length) pat seen (streamOfTurns turns)).2 := by
  induction turns generalizing seen w current with
  | nil =>
    obtain ⟨left, hsome⟩ := Option.ne_none_iff_exists'.mp hleft
    rw [timedLoop, hsome]
    exact ⟨rfl, rfl⟩
  | cons turn turns ih =>
    obtain ⟨left, hsome⟩ := Option.ne_none_iff_exists'.mp hleft
    obtain ⟨hready, hread, now, hnow, hlater⟩ := hturns turn List.mem_cons_self
    have htail : ∀ t ∈ turns, Untroubled start timeout t :=
      fun t ht => hturns t (List.mem_cons_of_mem turn ht)
    obtain ⟨ready, now'⟩ := turn
    obtain rfl : now' = some now := hnow
    cases ready with
    | failed => exact absurd rfl hready
    | readFailed => exact absurd rfl hread
    | notReady =>
      have hturn : takeTurn (windowByte move pat) w ⟨.notReady, some now⟩ = .ok (w, now) := rfl
      rw [timedLoop_of_ok turns hsome hturn]
      exact ih htail hw hlater
    | byte b =>
      show _ = endOf (watch _ pat seen (b :: streamOfTurns turns)).1
        ∧ _ = (watch _ pat seen (b :: streamOfTurns turns)).2
      rcases @windowByte_spec move pat seen w hpat hnul hw b (streamOfTurns turns) with
        ⟨e, hbyte, hwatch⟩ | ⟨w', hbyte, hw', hwatch⟩
      · have hturn : takeTurn (windowByte move pat) w ⟨.byte b, some now⟩ = .error (endOf e) := by
          show (windowByte move pat w b >>= fun s => .ok (s, now)) = _
          rw [hbyte]
          rfl
        rw [timedLoop_of_error turns hsome hturn, hwatch]
        exact ⟨rfl, rfl⟩
      · have hturn : takeTurn (windowByte move pat) w ⟨.byte b, some now⟩ = .ok (w', now) := by
          show (windowByte move pat w b >>= fun s => .ok (s, now)) = _
          rw [hbyte]
          rfl
        obtain ⟨hending, htaken⟩ := ih htail hw' hlater
        rw [timedLoop_of_ok turns hsome hturn, hwatch]
        exact ⟨hending, congrArg (List.cons b) htaken⟩

/-- **What a wait should do**: it ends with success exactly when the text occurs in the stream, having
taken the bytes up to the end of its first occurrence, and each access to the window is defined and
inside of it. -/
structure FindsFirst (pat stream : List UInt8) (run : LoopRun) : Prop where
  success : run.ending = .finished ↔ pat <:+: stream
  consumed : run.ending = .finished → EndsFirst pat stream run.taken
  inside : ∀ f, run.ending ≠ .fault f
  defined : run.ending ≠ .overlap

/-- A call that is not refused, with no timeout and no error. -/
structure Undisturbed (lTimeoutInSeconds lAdditionalTimeoutInMicroSeconds : ℤ) (start : Timeval)
    (turns : List Turn) : Prop where
  timeout : ∃ timeout,
    localTimeout lTimeoutInSeconds lAdditionalTimeoutInMicroSeconds = some timeout
      ∧ timeLeft start start timeout ≠ none ∧ ∀ turn ∈ turns, Untroubled start timeout turn

section

variable {pat : List UInt8} {lTimeoutInSeconds lAdditionalTimeoutInMicroSeconds : ℤ}
  {start : Timeval} {turns : List Turn}

/-- The method is a search from the beginning of the stream. -/
theorem waitForBufferWith_eq (move : Move) (hpat : pat ≠ []) (hnul : 0 ∉ pat)
    (hquiet : Undisturbed lTimeoutInSeconds lAdditionalTimeoutInMicroSeconds start turns) :
    (waitForBufferWith move pat lTimeoutInSeconds lAdditionalTimeoutInMicroSeconds (some start)
        turns).ending = endOf (watch (move.limit pat.length) pat [] (streamOfTurns turns)).1
      ∧ (waitForBufferWith move pat lTimeoutInSeconds lAdditionalTimeoutInMicroSeconds (some start)
        turns).taken = (watch (move.limit pat.length) pat [] (streamOfTurns turns)).2 := by
  obtain ⟨timeout, htimeout, hleft, hturns⟩ := hquiet.timeout
  unfold waitForBufferWith timedCall
  rw [htimeout]
  exact timedLoop_window hpat hnul hturns (clear_shows pat) hleft

theorem endOf_ne_fault (e : Ending) (f : Fault) : endOf e ≠ .fault f := by
  cases e <;> exact fun h => by cases h

theorem endOf_eq_finished {e : Ending} : endOf e = .finished ↔ e = .found := by
  cases e <;> decide

theorem endOf_eq_overlap {e : Ending} : endOf e = .overlap ↔ e = .gaveUp := by
  cases e <;> decide

/-- The wait is right as long as the window can move. -/
theorem findsFirst_iff_ne_gaveUp {move : Move} (hpat : pat ≠ []) (hnul : 0 ∉ pat)
    (hquiet : Undisturbed lTimeoutInSeconds lAdditionalTimeoutInMicroSeconds start turns) :
    FindsFirst pat (streamOfTurns turns) (waitForBufferWith move pat lTimeoutInSeconds
        lAdditionalTimeoutInMicroSeconds (some start) turns)
      ↔ (watch (move.limit pat.length) pat [] (streamOfTurns turns)).1 ≠ .gaveUp := by
  obtain ⟨hending, htaken⟩ := waitForBufferWith_eq move hpat hnul hquiet
  constructor
  · intro h hgives
    exact h.defined (by rw [hending, endOf_eq_overlap]; exact hgives)
  · intro hkeeps
    refine ⟨?_, ?_, ?_, ?_⟩
    · rw [hending, endOf_eq_finished]
      exact watch_found_iff hpat hkeeps
    · intro hfinished
      rw [hending, endOf_eq_finished] at hfinished
      rw [htaken]
      exact endsFirst_of_found hpat hfinished
    · intro f
      rw [hending]
      exact endOf_ne_fault _ f
    · rw [hending, Ne, endOf_eq_overlap]
      exact hkeeps

/-- **The wait as it stands** is right exactly for a text of at most two bytes, for a stream that is
shorter than the text, and for one that begins with it. -/
theorem findsFirst_iff (hpat : pat ≠ []) (hnul : 0 ∉ pat)
    (hquiet : Undisturbed lTimeoutInSeconds lAdditionalTimeoutInMicroSeconds start turns) :
    FindsFirst pat (streamOfTurns turns) (waitForBuffer pat lTimeoutInSeconds
        lAdditionalTimeoutInMicroSeconds (some start) turns)
      ↔ pat.length ≤ 2 ∨ (streamOfTurns turns).length < pat.length ∨ pat <+: streamOfTurns turns := by
  unfold waitForBuffer
  rw [findsFirst_iff_ne_gaveUp hpat hnul hquiet]
  by_cases hshort : pat.length ≤ 2
  · rw [show Move.memcpy.limit pat.length = none from
      if_neg (fun h => absurd h.2 (Nat.not_lt.mpr hshort))]
    exact iff_of_true (watch_ne_gaveUp [] (streamOfTurns turns)) (Or.inl hshort)
  · rw [show Move.memcpy.limit pat.length = some pat.length from
      if_pos ⟨rfl, Nat.lt_of_not_le hshort⟩, Ne, watch_gaveUp_iff hpat, not_not, or_iff_right hshort]

end

/-! ### A text of three bytes -/

/-- Turns that bring one byte after the other, all of them at the epoch. -/
def atOnce (bytes : List UInt8) : List Turn := bytes.map fun b => ⟨.byte b, some epoch⟩

theorem atOnce_undisturbed (bytes : List UInt8) : Undisturbed 1 0 epoch (atOnce bytes) := by
  refine ⟨⟨1, 0⟩, rfl, by decide +kernel, ?_⟩
  intro turn hturn
  obtain ⟨b, -, rfl⟩ := List.mem_map.mp hturn
  refine ⟨?_, ?_, epoch, rfl, ?_⟩
  · intro h; cases h
  · intro h; cases h
  · decide +kernel

theorem findsFirst_iff_beginning :
    FindsFirst [97, 98, 99] (streamOfTurns (atOnce [97, 98, 99, 100]))
      (waitForBuffer [97, 98, 99] 1 0 (some epoch) (atOnce [97, 98, 99, 100])) := by
  refine (findsFirst_iff (by decide) (by decide) (atOnce_undisturbed _)).mpr ?_
  exact Or.inr (Or.inr (by decide))

/-- The window moves after the third byte. -/
theorem not_findsFirst_of_moved :
    ¬ FindsFirst [97, 98, 99] (streamOfTurns (atOnce [120, 97, 98, 99]))
      (waitForBuffer [97, 98, 99] 1 0 (some epoch) (atOnce [120, 97, 98, 99])) := by
  intro h
  exact h.defined (by decide +kernel)

end SocketImpl

end CatraLibraries
