/-
# Reading lines

`FileReader::readLine` takes one character after the other into the buffer of the caller until it
has taken a newline, has reached the end of the file or has filled the buffer.

The lines of a file are the texts between its newlines, and a text behind the last one.  A call
that meets a line shorter than the buffer hands it over.  One that meets a longer line has already
taken the character for which there is no room, and writes the NUL over it: it delivers one
character less than it has taken.
-/
import CatraLibraries.Lib.CString
import CatraLibraries.Tools.FileReaderReads
import CatraLibraries.Tools.FileReaderRun

namespace CatraLibraries

open Memory CString

/-- What `readLine` leaves behind: its error code, the buffer and the count of the caller, and the
reader. -/
structure LineRead where
  result : Except ToolsError Unit
  pBuffer : Cells UInt8
  pullCharsRead : ℕ
  reader : FileReader

/-- The caller finds the characters in the buffer, with a NUL behind them, and their number. -/
def LineRead.Hands (l : LineRead) (chars : List UInt8) : Prop :=
  l.pullCharsRead = chars.length ∧ Terminated l.pBuffer chars

namespace FileReader

variable {r : FileReader} {L : ℕ} {done t rest : List UInt8} {x : Cells UInt8}

/-! ### The code -/

/-- The end of a line at a newline: the NUL goes where the newline is, or the `\r` before it. -/
def endLine (pBuffer : Cells UInt8) : ℕ → Except Fault (ℕ × Cells UInt8)
  | 0 => do return (0, ← store pBuffer 0 0)
  | n + 1 => do
    if (← load pBuffer n) = 13 then return (n, ← store pBuffer n 0)
    else return (n + 1, ← store pBuffer (n + 1) 0)

/-- The `while` loop and what follows it. -/
def readLineLoop (ullBufferLength : ℕ) :
    (fuel : ℕ) → ℕ → Cells UInt8 → FileReader → Except Fault LineRead
  | 0, _, _, _ => .error .outOfFuel
  | fuel + 1, pullCharsRead, pBuffer, r => do
    match ← r.readChars (pBuffer.drop pullCharsRead) 1 true with
    | (.error err, r) =>
      if err = .activationWrong then do
        -- the end of the file
        let pBuffer ← store pBuffer pullCharsRead 0
        if pullCharsRead > 0 then return ⟨.ok (), pBuffer, pullCharsRead, r⟩
        else return ⟨.error .fileReaderReachedEndOfFile, pBuffer, pullCharsRead, r⟩
      else return ⟨.error err, pBuffer, pullCharsRead, r⟩
    | (.ok (_, read), r) => do
      let pBuffer := pBuffer.take pullCharsRead ++ read
      if (← load pBuffer pullCharsRead) = 10 then do
        let (pullCharsRead, pBuffer) ← endLine pBuffer pullCharsRead
        return ⟨.ok (), pBuffer, pullCharsRead, r⟩
      else if pullCharsRead + 1 ≥ ullBufferLength then do
        let pBuffer ← store pBuffer pullCharsRead 0
        return ⟨.error .fileReaderBufferTooSmall, pBuffer, pullCharsRead, r⟩
      else readLineLoop ullBufferLength fuel (pullCharsRead + 1) pBuffer r

/-- `readLine`; every turn of its loop but the last makes the count grow towards the length. -/
def readLine (pBuffer : Cells UInt8) (ullBufferLength pullCharsRead : ℕ) (r : FileReader) :
    Except Fault LineRead :=
  if ullBufferLength < 1 then .ok ⟨.error .activationWrong, pBuffer, pullCharsRead, r⟩
  else if r.frFileReaderStatus ≠ .initialized then
    .ok ⟨.error .operationNotAllowed, pBuffer, pullCharsRead, r⟩
  else do
    let pBuffer ← store pBuffer 0 0
    readLineLoop ullBufferLength ullBufferLength 0 pBuffer r

/-- One call after the other, each with a buffer and a count of the caller. -/
def readLines (ullBufferLength : ℕ) :
    List (Cells UInt8 × ℕ) → FileReader → Except Fault (List LineRead)
  | [], _ => .ok []
  | (pBuffer, pullCharsRead) :: args, r => do
    let l ← r.readLine pBuffer ullBufferLength pullCharsRead
    let ls ← readLines ullBufferLength args l.reader
    return l :: ls

/-! ### What a call owes -/

/-- What is left of the file. -/
def unread (r : FileReader) : List UInt8 := r.contents.drop r.ullCurrentFileOffset

/-- A line without one `\r` at its end. -/
def dropReturn (line : List UInt8) : List UInt8 :=
  if line.getLast? = some 13 then line.dropLast else line

/-- **A right answer** on a text: the result, the characters delivered, and what is left.  Where the
buffer is too small, the characters delivered are those taken. -/
inductive Right : List UInt8 → Except ToolsError Unit → List UInt8 → List UInt8 → Prop
  | line {t rest : List UInt8} (ht : 10 ∉ t) : Right (t ++ 10 :: rest) (.ok ()) (dropReturn t) rest
  | last {t : List UInt8} (ht : 10 ∉ t) (hne : t ≠ []) : Right t (.ok ()) t []
  | tooSmall {chars rest : List UInt8} :
    Right (chars ++ rest) (.error .fileReaderBufferTooSmall) chars rest
  | finished : Right [] (.error .fileReaderReachedEndOfFile) [] []

/-- Every call gives a right answer on what the one before it has left. -/
def AllRight : List UInt8 → List LineRead → Prop
  | _, [] => True
  | text, l :: ls =>
    (∃ chars, l.Hands chars ∧ Right text l.result chars l.reader.unread) ∧
      AllRight l.reader.unread ls

/-- **Reading a file line by line**: however often `readLine` is called with buffers of the length,
all the answers are right. -/
def ReadsFile (L : ℕ) (r : FileReader) : Prop :=
  ∀ args : List (Cells UInt8 × ℕ), (∀ a ∈ args, a.1.length = L) →
    ∃ ls, readLines L args r = .ok ls ∧ AllRight r.unread ls

/-! ### One character -/

/-- The reader is in order, and the cache has room for what is left of the file. -/
structure Ready (r : FileReader) : Prop where
  windowed : Windowed r
  cacheHolds : r.unread ≠ [] → CacheHolds r

/-- Reading one character leaves the others. -/
theorem Ready.readChar (h : Ready r) {c : UInt8} (hunread : r.unread = c :: rest)
    {buffer : Cells UInt8} (hbuffer : buffer ≠ []) :
    ∃ r', r.readChars buffer 1 true = .ok (.ok (1, some c :: buffer.drop 1), r') ∧ Ready r' ∧
      r'.unread = rest := by
  have hlen := congrArg List.length hunread
  rw [unread, List.length_drop, List.length_cons] at hlen
  have hcount : specCount r.contents.length r.ullCurrentFileOffset 1 true = .ok 1 := by
    rw [specCount, if_pos (by omega)]
  have hc := h.cacheHolds (by rw [hunread]; simp)
  obtain ⟨r', hcall, hmoved⟩ := h.windowed.readBlock_ok buffer (by decide) hcount
    (List.length_pos_iff.mpr hbuffer) fun _ => hc
  have hslice : slice r.contents r.ullCurrentFileOffset 1 = [c] := by
    rw [slice, ← unread, hunread, List.take_succ_cons, List.take_zero]
  rw [hslice] at hcall
  refine ⟨r', hcall, ⟨hmoved.windowed, fun _ => hmoved.cacheHolds h.windowed hc⟩, ?_⟩
  rw [unread, hmoved.contents, hmoved.offset, ← List.drop_drop, ← unread, hunread]
  rfl

/-- At the end of the file a character is refused. -/
theorem Ready.readChar_end (h : Ready r) (hunread : r.unread = []) (buffer : Cells UInt8) :
    r.readChars buffer 1 true = .ok (.error .activationWrong, r) := by
  have hend := List.drop_eq_nil_iff.mp hunread
  refine h.windowed.readBlock_refused buffer (by decide) ?_
  rw [specCount, if_neg (by omega), if_pos rfl]

/-- A turn of the loop writes the character behind the others. -/
theorem readLineLoop_read (L : ℕ) (done : List UInt8) (h : Ready r) {c : UInt8} (hunread : r.unread = c :: rest)
    (hx : x ≠ []) :
    ∃ r', Ready r' ∧ r'.unread = rest ∧ ∀ fuel,
      readLineLoop L (fuel + 1) done.length (done.map some ++ x) r
        = if c = 10 then
            (endLine (done.map some ++ some c :: x.drop 1) done.length >>= fun a =>
              .ok ⟨.ok (), a.2, a.1, r'⟩)
          else if done.length + 1 ≥ L then
            (store (done.map some ++ some c :: x.drop 1) done.length 0 >>= fun m =>
              .ok ⟨.error .fileReaderBufferTooSmall, m, done.length, r'⟩)
          else readLineLoop L fuel (done.length + 1) (done.map some ++ some c :: x.drop 1) r' := by
  obtain ⟨r', hcall, hready, hrest⟩ := h.readChar hunread hx
  refine ⟨r', hready, hrest, fun fuel => ?_⟩
  have hdrop : (done.map some ++ x).drop done.length = x := List.drop_left' (by simp)
  have htake : (done.map some ++ x).take done.length = done.map some := List.take_left' (by simp)
  have hload : load (done.map some ++ some c :: x.drop 1) done.length = .ok c := by
    have := load_append (done.map some) (x.drop 1) c
    rwa [List.length_map] at this
  rw [readLineLoop, hdrop, hcall, ok_bind]
  simp only [htake, hload, ok_bind]
  rfl

/-- **The characters of a line** go into the buffer one behind the other. -/
theorem readLineLoop_chars (done : List UInt8) (h : Ready r) (hunread : r.unread = t ++ rest) (ht : 10 ∉ t)
    (hlen : done.length + t.length < L) (hx : done.length + x.length = L) :
    ∃ r', Ready r' ∧ r'.unread = rest ∧ ∀ fuel,
      readLineLoop L (t.length + fuel) done.length (done.map some ++ x) r
        = readLineLoop L fuel (done ++ t).length ((done ++ t).map some ++ x.drop t.length) r' := by
  induction t generalizing r done x with
  | nil =>
    refine ⟨r, h, hunread, fun fuel => ?_⟩
    rw [List.length_nil, Nat.zero_add, List.append_nil, List.drop_zero]
  | cons c t ih =>
    rw [List.mem_cons, not_or] at ht
    rw [List.length_cons] at hlen
    have hroom : 0 < x.length := by omega
    obtain ⟨r₁, h₁, hunread₁, hturn⟩ :=
      readLineLoop_read L done h hunread (List.ne_nil_of_length_pos hroom)
    have hbuffer : done.map some ++ some c :: x.drop 1 = (done ++ [c]).map some ++ x.drop 1 := by
      rw [List.map_append, List.append_assoc]
      rfl
    obtain ⟨r₂, h₂, hunread₂, hloop⟩ := ih (done ++ [c]) h₁ (x := x.drop 1) hunread₁ ht.2
      (show (done ++ [c]).length + t.length < L by
        rw [List.length_append, List.length_singleton]; omega)
      (by rw [List.length_append, List.length_singleton, List.length_drop]; omega)
    refine ⟨r₂, h₂, hunread₂, fun fuel => ?_⟩
    rw [List.length_cons, Nat.add_right_comm, hturn, if_neg (Ne.symm ht.1), if_neg (by omega),
      hbuffer]
    have hnext := hloop fuel
    rw [List.drop_drop, List.append_assoc, List.length_append, List.length_singleton] at hnext
    exact hnext.trans (by rw [Nat.add_comm 1]; rfl)

/-- At the end of the file the buffer has the characters taken. -/
theorem readLineLoop_end (L : ℕ) (done : List UInt8) (h : Ready r) (hunread : r.unread = []) (hx : x ≠ []) (fuel : ℕ) :
    ∃ m, Terminated m done ∧ readLineLoop L (fuel + 1) done.length (done.map some ++ x) r
      = .ok ⟨if done = [] then .error .fileReaderReachedEndOfFile else .ok (), m, done.length, r⟩ := by
  obtain ⟨m, hstore, -, hm⟩ := store_nul_after done hx
  refine ⟨m, hm, ?_⟩
  rw [readLineLoop, h.readChar_end hunread, ok_bind]
  simp only [if_true, hstore, ok_bind]
  by_cases hnil : done = []
  · rw [if_pos hnil, if_neg (by rw [hnil]; decide)]
    rfl
  · rw [if_neg hnil, if_pos (List.length_pos_iff.mpr hnil)]
    rfl

/-- The last character of a line is looked at for the `\r`. -/
theorem dropReturn_concat (front : List UInt8) (c : UInt8) :
    dropReturn (front ++ [c]) = if c = 13 then front else front ++ [c] := by
  simp [dropReturn]

/-- A newline ends the line before it, without one `\r`. -/
theorem endLine_eq (line : List UInt8) (x : Cells UInt8) :
    ∃ m, Terminated m (dropReturn line) ∧
      endLine (line.map some ++ some 10 :: x) line.length
        = .ok ((dropReturn line).length, m) := by
  induction line using List.reverseRecOn with
  | nil => exact ⟨some 0 :: x, ⟨x, rfl⟩, rfl⟩
  | append_singleton front c _ =>
    have hcells : (front ++ [c]).map some ++ some 10 :: x
        = front.map some ++ some c :: some 10 :: x := by
      rw [List.map_append, List.append_assoc]
      rfl
    have hload : load (front.map some ++ some c :: some 10 :: x) front.length = .ok c := by
      have := load_append (front.map some) (some 10 :: x) c
      rwa [List.length_map] at this
    rw [dropReturn_concat, List.length_append, List.length_singleton, endLine, hcells, hload,
      ok_bind]
    by_cases hcr : c = 13
    · obtain ⟨m, hstore, -, hm⟩ := store_nul_after front (x := some c :: some 10 :: x) (by simp)
      rw [if_pos hcr, if_pos hcr, hstore]
      exact ⟨m, hm, rfl⟩
    · obtain ⟨m, hstore, -, hm⟩ := store_nul_after (front ++ [c]) (x := some 10 :: x) (by simp)
      rw [hcells, List.length_append, List.length_singleton] at hstore
      rw [if_neg hcr, if_neg hcr, hstore]
      exact ⟨m, hm, by rw [List.length_append, List.length_singleton]; rfl⟩

/-! ### One call -/

/-- A call that takes the characters of a line into its buffer, one after the other. -/
theorem Ready.readLine_chars (h : Ready r) (hunread : r.unread = t ++ rest) (ht : 10 ∉ t)
    (hlen : t.length < L) {buffer : Cells UInt8} (hbuffer : buffer.length = L) (n : ℕ) :
    ∃ r' x k, Ready r' ∧ r'.unread = rest ∧ x ≠ [] ∧
      r.readLine buffer L n = readLineLoop L (k + 1) t.length (t.map some ++ x) r' := by
  have hset : (buffer.set 0 (some 0)).length = L := by rw [List.length_set, hbuffer]
  obtain ⟨r₁, h₁, hunread₁, hloop⟩ := readLineLoop_chars [] h hunread ht
    (by rwa [List.length_nil, Nat.zero_add]) ((Nat.zero_add _).trans hset)
  obtain ⟨k, hk⟩ := Nat.exists_eq_add_of_lt hlen
  have hroom : 0 < ((buffer.set 0 (some 0)).drop t.length).length := by
    rw [List.length_drop]
    omega
  refine ⟨r₁, (buffer.set 0 (some 0)).drop t.length, k, h₁, hunread₁,
    List.ne_nil_of_length_pos hroom, ?_⟩
  rw [readLine, if_neg (by omega), if_neg (by simp [h.windowed.status]), store_ok _ (by omega),
    ok_bind]
  have hturns := hloop (k + 1)
  rw [← Nat.add_assoc, ← hk] at hturns
  exact hturns

/-- **A line** shorter than the buffer. -/
theorem Ready.readLine_line (h : Ready r) (hunread : r.unread = t ++ 10 :: rest) (ht : 10 ∉ t)
    (hlen : t.length < L) {buffer : Cells UInt8} (hbuffer : buffer.length = L) (n : ℕ) :
    ∃ l, r.readLine buffer L n = .ok l ∧ Ready l.reader ∧ l.reader.unread = rest ∧
      l.result = .ok () ∧ l.Hands (dropReturn t) := by
  obtain ⟨r₁, x, k, h₁, hunread₁, hx, hcall⟩ := h.readLine_chars hunread ht hlen hbuffer n
  obtain ⟨r₂, h₂, hunread₂, hturn⟩ := readLineLoop_read L t h₁ hunread₁ hx
  obtain ⟨m, hm, hend⟩ := endLine_eq t (x.drop 1)
  refine ⟨⟨.ok (), m, (dropReturn t).length, r₂⟩, ?_, h₂, hunread₂, rfl, rfl, hm⟩
  rw [hcall, hturn, if_pos rfl, hend, ok_bind]

/-- **The text behind the last newline**, or the end of the file. -/
theorem Ready.readLine_last (h : Ready r) (ht : 10 ∉ r.unread) (hlen : r.unread.length < L)
    {buffer : Cells UInt8} (hbuffer : buffer.length = L) (n : ℕ) :
    ∃ l, r.readLine buffer L n = .ok l ∧ Ready l.reader ∧ l.reader.unread = [] ∧
      l.result = (if r.unread = [] then .error .fileReaderReachedEndOfFile else .ok ()) ∧
      l.Hands r.unread := by
  obtain ⟨r₁, x, k, h₁, hunread₁, hx, hcall⟩ :=
    h.readLine_chars (List.append_nil _).symm ht hlen hbuffer n
  obtain ⟨m, hm, hend⟩ := readLineLoop_end L r.unread h₁ hunread₁ hx k
  exact ⟨_, hcall.trans hend, h₁, hunread₁, rfl, rfl, hm⟩

/-- **A line that fills the buffer.**  Its last character that was taken is not delivered. -/
theorem Ready.readLine_full (h : Ready r) {c : UInt8} (hunread : r.unread = t ++ c :: rest)
    (ht : 10 ∉ t ++ [c]) (hlen : t.length + 1 = L) {buffer : Cells UInt8}
    (hbuffer : buffer.length = L) (n : ℕ) :
    ∃ l, r.readLine buffer L n = .ok l ∧ l.reader.unread = rest ∧
      l.result = .error .fileReaderBufferTooSmall ∧ l.Hands t := by
  rw [List.mem_append, List.mem_singleton, not_or] at ht
  obtain ⟨r₁, x, k, h₁, hunread₁, hx, hcall⟩ :=
    h.readLine_chars hunread ht.1 (by omega) hbuffer n
  obtain ⟨r₂, h₂, hunread₂, hturn⟩ := readLineLoop_read L t h₁ hunread₁ hx
  obtain ⟨m, hstore, -, hm⟩ := store_nul_after t (x := some c :: x.drop 1) (by simp)
  refine ⟨⟨.error .fileReaderBufferTooSmall, m, t.length, r₂⟩, ?_, hunread₂, rfl, rfl, hm⟩
  rw [hcall, hturn, if_neg (Ne.symm ht.2), if_pos (by omega), hstore, ok_bind]

/-- Where the cache has no room, a call writes past its end. -/
theorem readLine_outside (h : Windowed r) (hne : r.unread ≠ []) (hc : ¬ CacheHolds r) (hL : 0 < L)
    {buffer : Cells UInt8} (hbuffer : buffer.length = L) (n : ℕ) :
    r.readLine buffer L n = .error .outOfBounds := by
  have hmore : r.ullCurrentFileOffset < r.contents.length := by
    by_contra hend
    exact hne (List.drop_eq_nil_of_le (Nat.le_of_not_lt hend))
  have hcount : specCount r.contents.length r.ullCurrentFileOffset 1 true = .ok 1 := by
    rw [specCount, if_pos (by omega)]
  obtain ⟨k, rfl⟩ := Nat.exists_eq_succ_of_ne_zero hL.ne'
  have hblock := h.readBlock_outside (buffer.set 0 (some 0)) (by decide) hcount
    (h.le_cacheSize (by decide) (by omega)) hc
  rw [readLine, if_neg (by omega), if_neg (by simp [h.status]), store_ok _ (by omega), ok_bind,
    readLineLoop, List.drop_zero, FileReader.readChars, hblock, error_bind]

/-! ### The lines of a file -/

/-- Where the lines of a text are. -/
theorem splitOn_line (ht : 10 ∉ t) :
    (t ++ 10 :: rest).splitOn 10 = t :: rest.splitOn 10 := by
  rw [List.splitOn_append_cons_self, List.splitOn_eq_singleton ht, List.singleton_append]

/-- **One call** on lines that are all shorter than the buffer. -/
theorem Ready.readLine_right (h : Ready r) (hshort : ∀ t ∈ r.unread.splitOn 10, t.length < L)
    {buffer : Cells UInt8} (hbuffer : buffer.length = L) (n : ℕ) :
    ∃ l, r.readLine buffer L n = .ok l ∧ Ready l.reader ∧
      (∀ t ∈ l.reader.unread.splitOn 10, t.length < L) ∧
      ∃ chars, l.Hands chars ∧ Right r.unread l.result chars l.reader.unread := by
  by_cases hline : 10 ∈ r.unread
  · obtain ⟨t, rest, hunread, ht⟩ := List.eq_append_cons_of_mem hline
    rw [hunread, splitOn_line ht, List.forall_mem_cons] at hshort
    obtain ⟨l, hcall, hready, hrest, hresult, hhands⟩ :=
      h.readLine_line hunread ht hshort.1 hbuffer n
    refine ⟨l, hcall, hready, by rw [hrest]; exact hshort.2, _, hhands, ?_⟩
    rw [hunread, hresult, hrest]
    exact .line ht
  · rw [List.splitOn_eq_singleton hline, List.forall_mem_singleton] at hshort
    obtain ⟨l, hcall, hready, hrest, hresult, hhands⟩ := h.readLine_last hline hshort hbuffer n
    refine ⟨l, hcall, hready, ?_, _, hhands, ?_⟩
    · rw [hrest, List.splitOn_eq_singleton (by simp), List.forall_mem_singleton]
      exact Nat.lt_of_le_of_lt (Nat.zero_le _) hshort
    · rw [hresult, hrest]
      split_ifs with hnil
      · rw [hnil]
        exact .finished
      · exact .last hline hnil

/-- **All calls** on lines that are all shorter than the buffer. -/
theorem Ready.readsFile (h : Ready r) (hshort : ∀ t ∈ r.unread.splitOn 10, t.length < L) :
    ReadsFile L r := by
  intro args hargs
  induction args generalizing r with
  | nil => exact ⟨[], rfl, trivial⟩
  | cons a args ih =>
    rw [List.forall_mem_cons] at hargs
    obtain ⟨l, hcall, hready, hshort', hright⟩ := h.readLine_right hshort hargs.1 a.2
    obtain ⟨ls, hcalls, hall⟩ := ih hready hshort' hargs.2
    refine ⟨l :: ls, ?_, hright, hall⟩
    rw [readLines, hcall, ok_bind, hcalls, ok_bind]
    rfl

/-- From right answers in all calls, the first answer is right and so are the others. -/
theorem ReadsFile.cons (h : ReadsFile L r) {buffer : Cells UInt8} (hbuffer : buffer.length = L)
    (n : ℕ) :
    ∃ l, r.readLine buffer L n = .ok l ∧
      (∃ chars, l.Hands chars ∧ Right r.unread l.result chars l.reader.unread) ∧
      ReadsFile L l.reader := by
  have hfirst : ∀ args : List (Cells UInt8 × ℕ), (∀ a ∈ args, a.1.length = L) →
      ∃ l ls, r.readLine buffer L n = .ok l ∧ readLines L args l.reader = .ok ls ∧
        AllRight r.unread (l :: ls) := by
    intro args hargs
    obtain ⟨ls, hcalls, hall⟩ :=
      h ((buffer, n) :: args) (List.forall_mem_cons.mpr ⟨hbuffer, hargs⟩)
    obtain ⟨l, hcall, hcalls⟩ := bind_eq_ok.mp hcalls
    obtain ⟨ls', hrest, hls⟩ := bind_eq_ok.mp hcalls
    obtain rfl := Except.ok.inj hls
    exact ⟨l, ls', hcall, hrest, hall⟩
  obtain ⟨l, -, hcall, -, hright, -⟩ := hfirst [] (by simp)
  refine ⟨l, hcall, hright, fun args hargs => ?_⟩
  obtain ⟨l', ls, hcall', hrest, -, hall⟩ := hfirst args hargs
  obtain rfl := Except.ok.inj (hcall.symm.trans hcall')
  exact ⟨ls, hrest, hall⟩

theorem Right.eq_append {text chars left : List UInt8}
    (h : Right text (.error .fileReaderBufferTooSmall) chars left) : text = chars ++ left := by
  cases h
  rfl

theorem Right.ne_activationWrong {text chars left : List UInt8} :
    ¬ Right text (.error .activationWrong) chars left := nofun

/-- A line that fills the buffer is not read right. -/
theorem not_readsFile_of_full (h : Ready r) {c : UInt8} (hunread : r.unread = t ++ c :: rest)
    (ht : 10 ∉ t ++ [c]) (hlen : t.length + 1 = L) : ¬ ReadsFile L r := by
  intro hreads
  have hbuffer : (List.replicate L none : Cells UInt8).length = L := List.length_replicate
  obtain ⟨l, hcall, hrest, hresult, hcount, -⟩ := h.readLine_full hunread ht hlen hbuffer 0
  obtain ⟨l', hcall', ⟨chars, ⟨hchars, -⟩, hright⟩, -⟩ := hreads.cons hbuffer 0
  obtain rfl := Except.ok.inj (hcall.symm.trans hcall')
  -- the two texts differ by the character that is lost
  rw [hresult, hrest, hunread] at hright
  have htext := congrArg List.length hright.eq_append
  rw [List.length_append, List.length_append, List.length_cons, ← hchars, hcount] at htext
  omega

/-- **Where all answers are right** every line is shorter than the buffer. -/
theorem ReadsFile.short (h : Ready r) (hL : 0 < L) (hreads : ReadsFile L r) :
    ∀ t ∈ r.unread.splitOn 10, t.length < L := by
  induction hn : r.unread.length using Nat.strong_induction_on generalizing r with
  | h n ih =>
    -- a line that is not shorter fills the buffer
    have hline : ∀ t rest, r.unread = t ++ rest → 10 ∉ t → t.length < L := by
      intro t rest hunread ht
      by_contra hlong
      have hsplit : t = t.take (L - 1) ++ t[L - 1] :: t.drop L := by
        conv_lhs => rw [← List.take_append_drop (L - 1) t, List.drop_eq_getElem_cons (by omega)]
        rw [Nat.sub_add_cancel hL]
      have hfull : r.unread = t.take (L - 1) ++ t[L - 1] :: (t.drop L ++ rest) := by
        rw [hunread]
        conv_lhs => rw [hsplit]
        rw [List.append_assoc, List.cons_append]
      refine not_readsFile_of_full h hfull ?_ ?_ hreads
      · intro hmem
        rw [hsplit] at ht
        simp only [List.mem_append, List.mem_cons] at hmem ht
        tauto
      · rw [List.length_take]
        omega
    by_cases hmem : 10 ∈ r.unread
    · obtain ⟨t, rest, hunread, ht⟩ := List.eq_append_cons_of_mem hmem
      have hshort := hline t _ hunread ht
      have hbuffer : (List.replicate L none : Cells UInt8).length = L := List.length_replicate
      obtain ⟨l, hcall, hready, hrest, -, -⟩ := h.readLine_line hunread ht hshort hbuffer 0
      obtain ⟨l', hcall', -, hreads'⟩ := hreads.cons hbuffer 0
      obtain rfl := Except.ok.inj (hcall.symm.trans hcall')
      have hlen := congrArg List.length hunread
      rw [List.length_append, List.length_cons, hn] at hlen
      have hothers := ih l.reader.unread.length (by rw [hrest]; omega) hready hreads' rfl
      rw [hunread, splitOn_line ht, List.forall_mem_cons]
      exact ⟨hshort, hrest ▸ hothers⟩
    · rw [List.splitOn_eq_singleton hmem, List.forall_mem_singleton]
      exact hline _ [] (List.append_nil _).symm hmem

/-- **When a file is read right**, line by line: every line that is left is shorter than the buffer,
and the cache has room, where something is left. -/
theorem readsFile_iff (h : Windowed r) :
    ReadsFile L r ↔
      (r.unread ≠ [] → CacheHolds r) ∧ ∀ t ∈ r.unread.splitOn 10, t.length < L := by
  refine ⟨fun hreads => ?_, fun ⟨hc, hshort⟩ => Ready.readsFile ⟨h, hc⟩ hshort⟩
  have hbuffer : (List.replicate L none : Cells UInt8).length = L := List.length_replicate
  obtain ⟨l, hcall, ⟨chars, -, hright⟩, -⟩ := hreads.cons hbuffer 0
  have hL : 0 < L := by
    by_contra hzero
    rw [readLine, if_pos (by omega)] at hcall
    rw [← Except.ok.inj hcall] at hright
    exact hright.ne_activationWrong
  have hc : r.unread ≠ [] → CacheHolds r := by
    intro hne
    by_contra hc
    rw [readLine_outside h hne hc hL hbuffer 0] at hcall
    exact absurd hcall (by simp)
  exact ⟨hc, hreads.short ⟨h, hc⟩ hL⟩

/-- A file of an empty line and five characters, and a buffer of eight. -/
theorem readsFile_sixBytes : ReadsFile 8 sixBytes :=
  (readsFile_iff sixBytes_windowed).mpr ⟨fun _ => Or.inl (by decide), by decide⟩

/-- **Four characters and a buffer of three.**  Three are taken, and two delivered. -/
theorem not_readsFile_fourFF :
    fourFF.readLine [none, none, none] 3 0
        = .ok ⟨.error .fileReaderBufferTooSmall, [some 255, some 255, some 0], 2,
          { fourFF.refilled with ullCurrentFileOffset := 3 }⟩ ∧
      ¬ ReadsFile 3 fourFF := by
  refine ⟨rfl, ?_⟩
  have hready : Ready fourFF :=
    ⟨⟨rfl, rfl, by decide, by decide, by decide, rfl, Or.inl rfl⟩, fun _ => Or.inl (by decide)⟩
  exact not_readsFile_of_full hready (show fourFF.unread = [255, 255] ++ 255 :: [255] from rfl)
    (by decide) (by decide)

end FileReader

end CatraLibraries
