/-
# The header loop and the way the socket splits the stream

When does `readHttpHeader` end with exactly the header, and the socket on the first
body byte?  The loop looks for the terminator in one block at a time, so the answer
depends on where the reads cut the stream.  `SplitsWell` collects what a cut must
satisfy, block by block, and `readHttpHeader_iff` says that, with a header buffer
that keeps these blocks, it is exactly the condition.

The direction from the result back to the split rests on counting: every turn
appends as many bytes as it peeks and removes at most that many, and a turn that
misses the terminator is followed by one that appends at least four more bytes.
-/
import CatraLibraries.WebTools.WebUtility
import CatraLibraries.Tools.BufferRefinement

namespace CatraLibraries

open Memory CString Substring Buffer

/-! ### strstr on a block that was peeked -/

theorem strncmp_written (pat u : List UInt8) :
    strncmp (u.map some) pat =
      if pat <+: u then .ok true else if u <+: pat then .error .outOfBounds else .ok false := by
  induction pat generalizing u with
  | nil => simp [strncmp]
  | cons p pat ih =>
    cases u with
    | nil => simp [strncmp]
    | cons c u =>
      by_cases hcp : c = p
      · simp [strncmp, hcp, ih, List.cons_prefix_cons]
      · simp [strncmp, hcp, Ne.symm hcp, List.cons_prefix_cons]

/-- On bytes without a NUL `strstr` finds the first occurrence, or leaves the array. -/
theorem strstr_written {pat u : List UInt8} (hu : 0 ∉ u) (hne : pat ≠ []) :
    strstr (u.map some) pat =
      match findSub pat u with
      | some p => .ok (some p)
      | none => .error .outOfBounds := by
  induction u with
  | nil => simp [strstr, findSub, hne]
  | cons c u ih =>
    have hc : c ≠ 0 := fun h => hu (by simp [h])
    have hu' : 0 ∉ u := fun h => hu (List.mem_cons_of_mem c h)
    have hcmp := strncmp_written pat (c :: u)
    rw [List.map_cons] at hcmp ⊢
    rw [strstr, hcmp, findSub]
    by_cases hpre : pat <+: c :: u
    · rw [if_pos hpre, if_pos hpre]; rfl
    · rw [if_neg hpre, if_neg hpre]
      by_cases hrun : c :: u <+: pat
      · -- the comparison runs off the end, and nothing longer can follow
        have hnone : findSub pat u = none := by
          by_contra h
          obtain ⟨i, hi⟩ := Option.ne_none_iff_exists'.mp h
          have := findSub_le hi
          have := hrun.length_le
          simp only [List.length_cons] at this
          omega
        rw [if_pos hrun, hnone]; rfl
      · rw [if_neg hrun, ok_bind, if_neg (by simp)]
        simp only [if_neg hc, ih hu']
        cases findSub pat u <;> rfl

namespace WebUtility

/-- The search in a peeked block sees the bytes before the first zero, and needs a zero
to stop at when they do not hold the terminator. -/
theorem strstr_localResponse {block : List UInt8}
    (hlen : block.length ≤ maxHttpHeaderBufferSize) :
    strstr (localResponse block) crlfcrlf =
      match findSub crlfcrlf (visible block) with
      | some p => .ok (some p)
      | none =>
        if block.length < maxHttpHeaderBufferSize ∨ 0 ∈ block then .ok none
        else .error .outOfBounds := by
  have hpat : (0 : UInt8) ∉ crlfcrlf := by decide
  by_cases hz : block.length < maxHttpHeaderBufferSize ∨ 0 ∈ block
  · -- the array holds the visible bytes as a string
    have hholds : Holds (localResponse block) (visible block) := by
      refine ⟨zero_notMem_visible block, ?_⟩
      rcases visible_split block with hv | ⟨u, hu⟩
      · have hpos : 0 < maxHttpHeaderBufferSize - block.length := by
          rcases hz with h | h
          · omega
          · exact absurd h (hv ▸ zero_notMem_visible block)
        obtain ⟨k, hk⟩ := Nat.exists_eq_add_one.mpr hpos
        refine ⟨(List.replicate k 0).map some, ?_⟩
        rw [localResponse, hk, List.replicate_succ, hv]
        simp
      · refine ⟨(u ++ List.replicate (maxHttpHeaderBufferSize - block.length) 0).map some, ?_⟩
        have hcells : block.map some = (visible block).map some ++ some 0 :: u.map some := by
          conv_lhs => rw [hu]
          simp
        rw [localResponse, List.map_append, hcells]
        simp
    rw [hholds.strstr_eq hpat]
    cases findSub crlfcrlf (visible block) with
    | some p => rfl
    | none => simp only [if_pos hz]
  · have hnul : 0 ∉ block := fun h => hz (Or.inr h)
    have hfull : maxHttpHeaderBufferSize - block.length = 0 := by
      have : ¬ block.length < maxHttpHeaderBufferSize := fun h => hz (Or.inl h)
      omega
    rw [localResponse, hfull, List.replicate_zero, List.append_nil,
      strstr_written hnul (by decide), visible_eq_self hnul]
    cases findSub crlfcrlf block with
    | some p => rfl
    | none => simp only [if_neg hz]

end WebUtility

/-! ### One turn of the loop -/

namespace Socket

/-- The block the next peek returns. -/
def peeked (sock : Socket) : List UInt8 :=
  sock.unread.take (sock.readLength WebUtility.maxHttpHeaderBufferSize)

/-- The socket after a peek. -/
def afterPeek (sock : Socket) : Socket := { sock with reads := sock.reads + 1 }

/-- The socket after a peek and a read that removes up to `n` bytes. -/
def afterRemove (sock : Socket) (n : Nat) : Socket :=
  { sock with
    unread := sock.unread.drop (sock.afterPeek.readLength n)
    reads := sock.reads + 2 }

theorem readLength_le (sock : Socket) {n : Nat} (hn : 0 < n) (hne : sock.unread ≠ []) :
    0 < sock.readLength n ∧ sock.readLength n ≤ n ∧
      sock.readLength n ≤ sock.unread.length := by
  have hpos := List.length_pos_iff.mpr hne
  unfold readLength
  omega

theorem length_peeked {sock : Socket} (hne : sock.unread ≠ []) :
    0 < sock.peeked.length ∧
      sock.peeked.length ≤ WebUtility.maxHttpHeaderBufferSize ∧
      sock.peeked.length ≤ sock.unread.length := by
  obtain ⟨hpos, hmax, hle⟩ :=
    sock.readLength_le (n := WebUtility.maxHttpHeaderBufferSize) (by decide) hne
  rw [peeked, List.length_take, Nat.min_eq_left hle]
  exact ⟨hpos, hmax, hle⟩

theorem peeked_eq_take (sock : Socket) :
    sock.peeked = sock.unread.take sock.peeked.length := by
  rw [peeked, List.length_take, ← List.take_take, List.take_length]

end Socket

namespace WebUtility

theorem readHeaderLoop_nil (fuel : Nat) (hdr : Buffer) {sock : Socket}
    (h : sock.unread = []) :
    readHeaderLoop (fuel + 1) hdr sock =
      .ok (if sock.endError = .nothingToRead then .headerTimeoutExpired
        else .socketRead sock.endError, hdr, sock) := by
  simp [readHeaderLoop, Socket.read, h]

/-- A turn of the loop on a socket with unread bytes. -/
theorem readHeaderLoop_step (fuel : Nat) (hdr : Buffer) {sock : Socket}
    (hne : sock.unread ≠ []) :
    readHeaderLoop (fuel + 1) hdr sock = (do
      match ← strstr (localResponse sock.peeked) crlfcrlf with
      | some p =>
        let (err, hdr) ← hdr.append (some (localResponse sock.peeked)) (p + 4 : Nat)
        if err ≠ .errNoError then return (.bufferSetBufferFailed, hdr, sock.afterPeek)
        else return (.errNoError, hdr, sock.afterRemove (p + 4))
      | none =>
        let (err, hdr) ← hdr.append (some (localResponse sock.peeked)) sock.peeked.length
        if err ≠ .errNoError then return (.bufferSetBufferFailed, hdr, sock.afterPeek)
        else readHeaderLoop fuel hdr (sock.afterRemove sock.peeked.length)) := by
  rw [readHeaderLoop]
  simp only [Socket.read, hne, if_false, Bool.false_eq_true, if_true]
  rfl

/-! ### Splits -/

/-- **How the reads must cut the stream** for the loop to end with the header; the list
collects the blocks it appends.  Blocks that are only removed end before the terminator
begins, and a full one has a zero for `strstr` to stop at; the last block holds the
whole terminator, with no zero before its end; and the removing reads return all the
bytes they are asked for. -/
inductive SplitsWell : Socket → List (List UInt8) → Prop
  | last {sock : Socket} {i : Nat} (hfind : findSub crlfcrlf sock.unread = some i)
      (hblock : i + 4 ≤ (visible sock.peeked).length)
      (hremove : sock.afterPeek.readLength (i + 4) = i + 4) :
      SplitsWell sock [sock.unread.take (i + 4)]
  | more {sock : Socket} {i : Nat} {blocks : List (List UInt8)}
      (hfind : findSub crlfcrlf sock.unread = some i) (hblock : sock.peeked.length ≤ i)
      (hzero : sock.peeked.length < maxHttpHeaderBufferSize ∨ 0 ∈ sock.peeked)
      (hremove : sock.afterPeek.readLength sock.peeked.length = sock.peeked.length)
      (hrest : SplitsWell (sock.afterRemove sock.peeked.length) blocks) :
      SplitsWell sock (sock.peeked :: blocks)

theorem ne_nil_of_findSub {s : List UInt8} {i : Nat} (h : findSub crlfcrlf s = some i) :
    s ≠ [] := by
  rintro rfl
  exact absurd (findSub_le h) (by simp [crlfcrlf])

theorem findSub_visible_peeked {sock : Socket} {p : Nat} :
    findSub crlfcrlf (visible sock.peeked) = some p ↔
      findSub crlfcrlf sock.unread = some p ∧ p + 4 ≤ (visible sock.peeked).length := by
  have hpre : visible sock.peeked <+: sock.unread :=
    (visible_isPrefixOf _).trans (List.take_prefix _ _)
  have htake := List.prefix_iff_eq_take.mp hpre
  rw [htake]
  exact findSub_take

/-- The first bytes of the array are those of the block. -/
theorem take_localResponse {block : List UInt8} {n : Nat} (hn : n ≤ block.length) :
    (localResponse block).take n = (block.take n).map some := by
  rw [localResponse, ← List.map_take, List.take_append_of_le_length hn]

theorem length_localResponse {block : List UInt8}
    (hlen : block.length ≤ maxHttpHeaderBufferSize) :
    (localResponse block).length = maxHttpHeaderBufferSize := by
  rw [localResponse, List.length_map, List.length_append, List.length_replicate]
  omega

/-- Appending the first `n` bytes of the array appends the first `n` bytes that are unread. -/
theorem append_localResponse (hdr : Buffer) {sock : Socket} (hne : sock.unread ≠ []) {n : Nat}
    (hn : n ≤ sock.peeked.length) :
    (sock.unread.take n).length = n ∧
      hdr.append (some (localResponse sock.peeked)) n
        = hdr.append (some ((sock.unread.take n).map some)) (sock.unread.take n).length := by
  obtain ⟨-, hmax, hle⟩ := Socket.length_peeked hne
  have hlen : (sock.unread.take n).length = n := by rw [List.length_take]; omega
  have htake : sock.peeked.take n = sock.unread.take n := by
    rw [sock.peeked_eq_take, List.take_take, Nat.min_eq_left hn]
  refine ⟨hlen, ?_⟩
  have h := append_congr hdr (sock.unread.take n) (localResponse sock.peeked)
    (by rw [hlen, take_localResponse hn, htake]) (by rw [hlen, length_localResponse hmax]; omega)
  rwa [hlen] at h ⊢

/-! ### From the split to the result -/

theorem readHeaderLoop_of_splits {sock : Socket} {blocks : List (List UInt8)}
    (h : SplitsWell sock blocks) :
    ∀ (hdr hdr' : Buffer) (fuel : Nat), InUse hdr → hdr.appendAll blocks = .ok hdr' →
      sock.unread.length < fuel →
      ∃ sock' i, readHeaderLoop fuel hdr sock = .ok (.errNoError, hdr', sock') ∧
        findSub crlfcrlf sock.unread = some i ∧ blocks.flatten = sock.unread.take (i + 4) ∧
        sock'.unread = sock.unread.drop (i + 4) := by
  induction h with
  | @last sock i hfind hblock hremove =>
    intro hdr hdr' fuel hin happ hfuel
    have hne := ne_nil_of_findSub hfind
    obtain ⟨-, hmax, -⟩ := Socket.length_peeked hne
    have hvis := (visible_isPrefixOf sock.peeked).length_le
    have hstr : strstr (localResponse sock.peeked) crlfcrlf = .ok (some i) := by
      rw [strstr_localResponse hmax, findSub_visible_peeked.mpr ⟨hfind, hblock⟩]
    obtain ⟨hlen, hcongr⟩ := append_localResponse hdr hne (n := i + 4) (by omega)
    obtain ⟨⟨e, b⟩, hb, hnil⟩ := bind_eq_ok.mp happ
    obtain rfl : b = hdr' := Except.ok.inj hnil
    obtain ⟨rfl, -⟩ := append_inUse hin (take_map_some _) (by simp) hb
    obtain ⟨fuel, rfl⟩ := Nat.exists_eq_add_one_of_ne_zero (show fuel ≠ 0 by omega)
    refine ⟨sock.afterRemove (i + 4), i, ?_, hfind, by simp, ?_⟩
    · rw [readHeaderLoop_step fuel hdr hne, hstr, ok_bind]
      simp only [hcongr, hb, ok_bind]
      rfl
    · show sock.unread.drop (sock.afterPeek.readLength (i + 4)) = _
      rw [hremove]
  | @more sock i blocks hfind hblock hzero hremove hrest ih =>
    intro hdr hdr' fuel hin happ hfuel
    have hne := ne_nil_of_findSub hfind
    obtain ⟨hpos, hmax, hle⟩ := Socket.length_peeked hne
    have hstr : strstr (localResponse sock.peeked) crlfcrlf = .ok none := by
      have hnone : findSub crlfcrlf (visible sock.peeked) = none := by
        by_contra hsome
        obtain ⟨p, hp⟩ := Option.ne_none_iff_exists'.mp hsome
        obtain ⟨hp, hvis⟩ := findSub_visible_peeked.mp hp
        have := (visible_isPrefixOf sock.peeked).length_le
        obtain rfl : p = i := Option.some.inj (hp.symm.trans hfind)
        omega
      rw [strstr_localResponse hmax, hnone]
      simp only [if_pos hzero]
    obtain ⟨hlen, hcongr⟩ := append_localResponse hdr hne (n := sock.peeked.length) le_rfl
    obtain ⟨⟨e, b⟩, hb, happ'⟩ := bind_eq_ok.mp happ
    obtain ⟨rfl, hin'⟩ := append_inUse hin (take_map_some _) (by simp) hb
    have hunread : (sock.afterRemove sock.peeked.length).unread
        = sock.unread.drop sock.peeked.length := by
      show sock.unread.drop (sock.afterPeek.readLength _) = _
      rw [hremove]
    obtain ⟨fuel, rfl⟩ := Nat.exists_eq_add_one_of_ne_zero (show fuel ≠ 0 by omega)
    obtain ⟨sock', j, hloop, hfind', hflat, hrest'⟩ := ih b hdr' fuel hin' happ'
      (by rw [hunread, List.length_drop]; omega)
    rw [hunread] at hfind' hflat hrest'
    obtain rfl : i - sock.peeked.length = j :=
      Option.some.inj ((findSub_drop hfind hblock).symm.trans hfind')
    have hadd : sock.peeked.length + (i - sock.peeked.length + 4) = i + 4 := by omega
    refine ⟨sock', i, ?_, hfind, ?_, ?_⟩
    · rw [← sock.peeked_eq_take] at hcongr
      rw [readHeaderLoop_step fuel hdr hne, hstr, ok_bind]
      simp only [hcongr, hb, ok_bind, ne_eq, not_true_eq_false, if_false]
      exact hloop
    · rw [List.flatten_cons, hflat, ← hadd]
      conv_lhs => lhs; rw [sock.peeked_eq_take]
      exact List.take_add.symm
    · rw [hrest', List.drop_drop, hadd]

/-! ### From the result back to the split -/

/-- What any run of the loop that ends well has done. -/
theorem readHeaderLoop_trace :
    ∀ (fuel : Nat) (hdr hdr' : Buffer) (sock sock' : Socket),
      readHeaderLoop fuel hdr sock = .ok (.errNoError, hdr', sock') →
      ∃ blocks, hdr.appendAll blocks = .ok hdr' ∧ 4 ≤ blocks.flatten.length ∧
        sock.unread.length ≤ sock'.unread.length + blocks.flatten.length ∧
        ∀ i, findSub crlfcrlf sock.unread = some i → blocks.flatten.length = i + 4 →
          sock'.unread.length + (i + 4) = sock.unread.length → SplitsWell sock blocks := by
  intro fuel
  induction fuel with
  | zero => intro hdr hdr' sock sock' h; exact absurd h (by rintro ⟨⟩)
  | succ fuel ih =>
    intro hdr hdr' sock sock' h
    by_cases hne : sock.unread = []
    · rw [readHeaderLoop_nil fuel hdr hne] at h
      have hcode := (Prod.mk.inj (Except.ok.inj h)).1
      split at hcode <;> exact absurd hcode (by simp)
    · obtain ⟨hpos, hmax, hle⟩ := Socket.length_peeked hne
      have hvis := (visible_isPrefixOf sock.peeked).length_le
      rw [readHeaderLoop_step fuel hdr hne, strstr_localResponse hmax] at h
      cases hfind : findSub crlfcrlf (visible sock.peeked) with
      | some p =>
        -- the block with the terminator that the search has found
        obtain ⟨hfindp, hblock⟩ := findSub_visible_peeked.mp hfind
        obtain ⟨hlen, hcongr⟩ := append_localResponse hdr hne (n := p + 4) (by omega)
        simp only [hfind, ok_bind, hcongr] at h
        obtain ⟨⟨e, b⟩, hb, h⟩ := bind_eq_ok.mp h
        by_cases he : e = .errNoError
        · subst he
          obtain ⟨-, h⟩ := Prod.mk.inj (Except.ok.inj h)
          obtain ⟨rfl, rfl⟩ := Prod.mk.inj h
          have hrem := sock.afterPeek.readLength_le (n := p + 4) (by omega) hne
          have hdrop : (sock.afterRemove (p + 4)).unread.length
              = sock.unread.length - sock.afterPeek.readLength (p + 4) := List.length_drop ..
          have hun : sock.afterPeek.unread = sock.unread := rfl
          rw [hun] at hrem
          refine ⟨[sock.unread.take (p + 4)], ?_, ?_, ?_, ?_⟩
          · rw [appendAll, hb]; rfl
          · simp only [List.flatten_cons, List.flatten_nil, List.append_nil, hlen]; omega
          · simp only [List.flatten_cons, List.flatten_nil, List.append_nil, hlen, hdrop]; omega
          · intro i hi _ hsock
            obtain rfl : p = i := Option.some.inj (hfindp.symm.trans hi)
            exact .last hfindp hblock (by omega)
        · simp only [ne_eq, he, not_false_eq_true, if_true] at h
          exact absurd (Prod.mk.inj (Except.ok.inj h)).1 (by simp)
      | none =>
        -- a block that is taken for header bytes as a whole
        simp only [hfind] at h
        obtain ⟨o, ho, h⟩ := bind_eq_ok.mp h
        split at ho
        · next hzero =>
          obtain rfl := Except.ok.inj ho
          obtain ⟨hlen, hcongr⟩ := append_localResponse hdr hne (n := sock.peeked.length) le_rfl
          rw [← sock.peeked_eq_take] at hcongr
          simp only [hcongr] at h
          obtain ⟨⟨e, b⟩, hb, h⟩ := bind_eq_ok.mp h
          by_cases he : e = .errNoError
          · subst he
            simp only [ne_eq, not_true_eq_false, if_false] at h
            obtain ⟨blocks, happ, hfour, hcount, hsplit⟩ := ih _ _ _ _ h
            have hrem := sock.afterPeek.readLength_le hpos hne
            have hun : sock.afterPeek.unread = sock.unread := rfl
            rw [hun] at hrem
            have hunread : (sock.afterRemove sock.peeked.length).unread
                = sock.unread.drop (sock.afterPeek.readLength sock.peeked.length) := rfl
            rw [hunread, List.length_drop] at hcount
            refine ⟨sock.peeked :: blocks, ?_, ?_, ?_, ?_⟩
            · rw [appendAll, hb]; exact happ
            · rw [List.flatten_cons, List.length_append]; omega
            · rw [List.flatten_cons, List.length_append]; omega
            · intro i hi hflat hsock
              rw [List.flatten_cons, List.length_append] at hflat
              -- as many bytes were removed as were appended, turn by turn
              have hall : sock.afterPeek.readLength sock.peeked.length = sock.peeked.length := by
                omega
              refine .more hi (by omega) hzero hall (hsplit (i - sock.peeked.length) ?_ ?_ ?_)
              · rw [hunread, hall]
                exact findSub_drop hi (by omega)
              · omega
              · rw [hunread, hall, List.length_drop]; omega
          · simp only [ne_eq, he, not_false_eq_true, if_true] at h
            exact absurd (Prod.mk.inj (Except.ok.inj h)).1 (by simp)
        · exact absurd ho (by simp)

/-! ### The header read -/

theorem setBuffer_empty {b b₀ : Buffer} (hb : Idle b ∨ ∃ s, Contents b s)
    (hset : b.setBuffer (some [some 0]) (-1) = .ok (.errNoError, b₀)) : Contents b₀ [] := by
  rcases setBuffer_clears hb with hbad | ⟨b', hb', hc, -⟩
  · exact absurd (hset.symm.trans hbad) (by simp)
  · obtain ⟨-, rfl⟩ := Prod.mk.inj (Except.ok.inj (hset.symm.trans hb'))
    exact hc

/-- **The header read is exact when the reads split the stream well.**  The stream's
first terminator begins at `i`.  The call ends with the bytes up to the end of that
terminator in the header buffer and the rest unread if and only if the reads split the
stream well and the header buffer keeps the blocks of that split. -/
theorem readHttpHeader_iff {b b₀ : Buffer} (hb : Idle b ∨ ∃ s, Contents b s)
    (hset : b.setBuffer (some [some 0]) (-1) = .ok (.errNoError, b₀)) (sock : Socket)
    {i : Nat} (hfind : findSub crlfcrlf sock.unread = some i) :
    (∃ hdr sock', readHttpHeader b sock = .ok (.errNoError, hdr, sock') ∧
        Stores hdr (sock.unread.take (i + 4)) ∧ sock'.unread = sock.unread.drop (i + 4)) ↔
      ∃ blocks, SplitsWell sock blocks ∧ AppendsFit b₀ blocks ∧
        b₀.appendAll blocks ≠ .error .badAlloc := by
  have hc := setBuffer_empty hb hset
  have hread : readHttpHeader b sock = readHeaderLoop (sock.unread.length + 1) b₀ sock := by
    rw [readHttpHeader, hset]
    rfl
  have hle : i + 4 ≤ sock.unread.length := findSub_le hfind
  constructor
  · rintro ⟨hdr, sock', hrun, hstores, hrest⟩
    rw [hread] at hrun
    obtain ⟨blocks, happ, -, -, hsplit⟩ := readHeaderLoop_trace _ _ _ _ _ hrun
    obtain ⟨hin, hchars, hback⟩ := appendAll_back hc blocks hdr happ
    have hflat : blocks.flatten.length = i + 4 := by
      rw [← hchars, ← hin.length_eq_chars, hstores.1, List.length_take, Nat.min_eq_left hle]
    have hsplits := hsplit i hfind hflat (by rw [hrest, List.length_drop]; omega)
    obtain ⟨_, j, _, hfind', hbytes, _⟩ := readHeaderLoop_of_splits hsplits b₀ hdr
      (sock.unread.length + 1) hc.inUse happ (Nat.lt_succ_self _)
    obtain rfl : i = j := Option.some.inj (hfind.symm.trans hfind')
    rw [← hbytes] at hstores
    refine ⟨blocks, hsplits, fits_of_stores hc (hback hstores), ?_⟩
    rw [happ]
    simp
  · rintro ⟨blocks, hsplits, hfits, hmem⟩
    rcases appendAll_contents hc hfits blocks (List.prefix_refl _) with hbad | ⟨hdr, happ, hcont⟩
    · exact absurd hbad hmem
    · obtain ⟨sock', j, hrun, hfind', hbytes, hrest⟩ := readHeaderLoop_of_splits hsplits b₀ hdr
        (sock.unread.length + 1) hc.inUse happ (Nat.lt_succ_self _)
      obtain rfl : i = j := Option.some.inj (hfind.symm.trans hfind')
      exact ⟨hdr, sock', hread.trans hrun, hbytes ▸ hcont.stores, hrest⟩

/-- A socket with the stream `"A\r\n\r\nB"`, read in pieces of at most `n` bytes. -/
def socketA (n : Nat) : Socket :=
  ⟨[65, 13, 10, 13, 10, 66], fun _ => n, 0, .readEofReached⟩

theorem readHttpHeader_iff_one_block :
    ∃ b₀, Buffer.built.setBuffer (some [some 0]) (-1) = .ok (.errNoError, b₀) ∧
      ((∃ hdr sock', readHttpHeader .built (socketA 2048) = .ok (.errNoError, hdr, sock') ∧
          Stores hdr [65, 13, 10, 13, 10] ∧ sock'.unread = [66]) ↔
        ∃ blocks, SplitsWell (socketA 2048) blocks ∧ AppendsFit b₀ blocks ∧
          b₀.appendAll blocks ≠ .error .badAlloc) :=
  ⟨_, rfl, readHttpHeader_iff (Or.inl built_idle) rfl (socketA 2048) (i := 1) rfl⟩

/-- A terminator cut between its second and third byte is missed: the whole stream goes
to the header, and the loop ends at the end of the stream. -/
theorem readHttpHeader_split_terminator :
    (readHttpHeader .built (socketA 3)).map (fun r => (r.1, r.2.1.ullCharsNumber))
        = .ok (.socketRead .readEofReached, 6) ∧
      ¬ ∀ (sock : Socket) (i : Nat), findSub crlfcrlf sock.unread = some i →
        ∃ hdr sock', readHttpHeader .built sock = .ok (.errNoError, hdr, sock') ∧
          Stores hdr (sock.unread.take (i + 4)) ∧ sock'.unread = sock.unread.drop (i + 4) := by
  have hrun : (readHttpHeader .built (socketA 3)).map (fun r => (r.1, r.2.1.ullCharsNumber))
      = .ok (.socketRead .readEofReached, 6) := by decide +kernel
  refine ⟨hrun, fun h => ?_⟩
  obtain ⟨hdr, sock', hok, -⟩ := h (socketA 3) 1 rfl
  rw [hok] at hrun
  exact absurd hrun (by rintro ⟨⟩)

end WebUtility

end CatraLibraries
