/-
# Retention of the keys

The two containers hold the same records in every run.  A retention pass removes the records in
front that its comparison takes for too old; those are the ones that are too old exactly when the
first of the others is not of the future.

A key that is marked as failed is reported as such when the mark found no record of a request that
was saved for it: the insertion leaves a record that is there as it is, and the mark reports
success all the same.
-/
import CatraLibraries.HTTPCacheManager.RequestKeys

namespace CatraLibraries

open HashMaps Transition

/-! ### Prefixes of a list -/

section Prefixes

variable {α : Type*} {p q : α → Prop} [DecidablePred p] [DecidablePred q]

/-- A condition that holds of less may stop a prefix earlier. -/
theorem dropWhile_eq_iff {l : List α} (h : ∀ x ∈ l, p x → q x) :
    l.dropWhile (q ·) = l.dropWhile (p ·) ↔ ∀ x ∈ (l.dropWhile (p ·)).head?, ¬q x := by
  induction l with
  | nil => exact iff_of_true rfl fun x hx => by cases hx
  | cons x l ih =>
    by_cases hp : p x
    · rw [List.dropWhile_cons_of_pos (by simpa using h x List.mem_cons_self hp),
        List.dropWhile_cons_of_pos (by simpa using hp)]
      exact ih fun y hy => h y (List.mem_cons_of_mem x hy)
    · rw [List.dropWhile_cons_of_neg (p := (p ·)) (by simpa using hp), List.head?_cons]
      constructor
      · rintro hsame y hy hq
        obtain rfl : x = y := Option.some.inj hy
        rw [List.dropWhile_cons_of_pos (by simpa using hq)] at hsame
        have hlength := (List.dropWhile_suffix (l := l) (q ·)).length_le
        rw [hsame, List.length_cons] at hlength
        exact absurd hlength (Nat.not_succ_le_self _)
      · intro hq
        exact List.dropWhile_cons_of_neg (by simpa using hq x rfl)

/-- In a list in order, a condition that goes over to what is before holds of a prefix. -/
theorem dropWhile_eq_filter {r : α → α → Prop} (hp : ∀ x y, r x y → p y → p x) {l : List α}
    (hl : l.Pairwise r) : l.dropWhile (p ·) = l.filter (¬p ·) := by
  induction l with
  | nil => rfl
  | cons x l ih =>
    obtain ⟨hx, hl⟩ := List.pairwise_cons.mp hl
    by_cases hpx : p x
    · rw [List.dropWhile_cons_of_pos (by simpa using hpx), List.filter_cons_of_neg (by simpa using hpx),
        ih hl]
    · rw [List.dropWhile_cons_of_neg (by simpa using hpx)]
      refine (List.filter_eq_self.mpr ?_).symm
      intro y hy
      rcases List.mem_cons.mp hy with rfl | hy
      · simpa using hpx
      · simpa using fun hpy => hpx (hp x y (hx y hy) hpy)

theorem drop_length_takeWhile (p : α → Bool) (l : List α) :
    l.drop (l.takeWhile p).length = l.dropWhile p := by
  have h : (l.takeWhile p ++ l.dropWhile p).drop (l.takeWhile p).length = l.dropWhile p :=
    List.drop_left
  rw [List.takeWhile_append_dropWhile] at h
  exact h

end Prefixes

namespace RequestKeys

variable {ulRetentionInSeconds : UInt64} {s s' : RequestKeys} {a : Action} {phri : ℕ} {tNow : Int}
  {pbHTTPRequestKey pbHTTPRequest : List UInt8}

/-- **The two containers hold the same records**, under the key and the timestamp that each of them
has, and these are the records that are allocated. -/
structure Consistent (s : RequestKeys) : Prop where
  same : (values s.phmHTTPRequestKeys).Perm (s.mmHTTPRequestKeys.entries.map Prod.snd)
  allocated : s.allocated.Perm (s.mmHTTPRequestKeys.entries.map Prod.snd)
  nodup : s.allocated.Nodup
  keys : ∀ key phri, s.phmHTTPRequestKeys.lookup key = some phri →
    (s.infos phri).bHTTPRequestKey = key
  times : ∀ e ∈ s.mmHTTPRequestKeys.entries, (s.infos e.2).tTimestamp = e.1 ∧ IsTime e.1

theorem consistent_initial : Consistent initial where
  same := List.Perm.refl _
  allocated := List.Perm.refl _
  nodup := List.nodup_nil
  keys := by
    intro key phri h
    cases h
  times := by
    intro e he
    cases he

namespace Consistent

theorem mem_allocated (h : Consistent s) {e : Int × ℕ} (he : e ∈ s.mmHTTPRequestKeys.entries) :
    e.2 ∈ s.allocated := h.allocated.mem_iff.mpr (List.mem_map_of_mem he)

theorem mem_allocated_of_lookup (h : Consistent s)
    (hkey : s.phmHTTPRequestKeys.lookup pbHTTPRequestKey = some phri) : phri ∈ s.allocated :=
  h.allocated.mem_iff.mpr (h.same.mem_iff.mp (mem_values_iff.mpr ⟨_, hkey⟩))

/-- Every entry of the multimap has its key in the hash map. -/
theorem lookup_key (h : Consistent s) {e : Int × ℕ} (he : e ∈ s.mmHTTPRequestKeys.entries) :
    s.phmHTTPRequestKeys.lookup (s.infos e.2).bHTTPRequestKey = some e.2 := by
  obtain ⟨key, hkey⟩ := mem_values_iff.mp (h.same.mem_iff.mpr (List.mem_map_of_mem he))
  rw [h.keys key e.2 hkey]
  exact hkey

/-- **Saving** keeps the containers in step. -/
theorem save (h : Consistent s) (hnew : phri ∉ s.allocated) (hnow : IsTime tNow)
    (newWorks : Bool) (bIsHTTPRequestSuccess : Bool) :
    Consistent (s.saveHTTPRequestKey newWorks phri tNow pbHTTPRequestKey pbHTTPRequest
      bIsHTTPRequestSuccess).2 := by
  unfold saveHTTPRequestKey
  split
  · exact h
  · have hkeys : ∀ key phri', s.phmHTTPRequestKeys.lookup key = some phri' →
        (Function.update s.infos phri ⟨pbHTTPRequestKey, pbHTTPRequest, bIsHTTPRequestSuccess, tNow⟩
          phri').bHTTPRequestKey = key := by
      intro key phri' hkey
      have hne : phri' ≠ phri := by
        rintro rfl
        exact hnew (h.mem_allocated_of_lookup hkey)
      rw [Function.update_of_ne hne]
      exact h.keys key phri' hkey
    have htimes : ∀ e ∈ s.mmHTTPRequestKeys.entries,
        (Function.update s.infos phri ⟨pbHTTPRequestKey, pbHTTPRequest, bIsHTTPRequestSuccess, tNow⟩
          e.2).tTimestamp = e.1 ∧ IsTime e.1 := by
      intro e he
      have hne : e.2 ≠ phri := by
        rintro heq
        exact hnew (heq ▸ h.mem_allocated he)
      rw [Function.update_of_ne hne]
      exact h.times e he
    dsimp only
    by_cases hmem : pbHTTPRequestKey ∈ s.phmHTTPRequestKeys
    · -- the new record is given back
      rw [insertWithoutDuplication_of_mem hmem, if_pos rfl]
      dsimp only
      rw [List.erase_cons_head]
      exact ⟨h.same, h.allocated, h.nodup, hkeys, htimes⟩
    · rw [insertWithoutDuplication_of_notMem hmem, if_neg (fun h => Bool.noConfusion h)]
      have hentries := (MultiMap.insertEntries_perm tNow phri s.mmHTTPRequestKeys.entries).map
        Prod.snd
      refine ⟨?_, ?_, List.nodup_cons.mpr ⟨hnew, h.nodup⟩, ?_, ?_⟩
      · dsimp only
        rw [values_insert hmem]
        exact (h.same.cons phri).trans hentries.symm
      · exact (h.allocated.cons phri).trans hentries.symm
      · intro key phri' hkey
        dsimp only at hkey ⊢
        rcases lookup_insert_eq_some hkey with ⟨rfl, rfl⟩ | ⟨-, hold⟩
        · rw [Function.update_self]
        · exact hkeys key phri' hold
      · intro e he
        rcases MultiMap.mem_insertEntries.mp he with rfl | he
        · dsimp only
          rw [Function.update_self]
          exact ⟨rfl, hnow⟩
        · exact htimes e he

end Consistent

/-! ### Removal -/

@[simp] theorem infos_removeFirst (s : RequestKeys) : s.removeFirst.infos = s.infos := by
  unfold removeFirst
  split
  · rfl
  · rfl

theorem entries_removeFirst (s : RequestKeys) :
    s.removeFirst.mmHTTPRequestKeys.entries = s.mmHTTPRequestKeys.entries.tail := by
  unfold removeFirst
  split
  · next hbegin =>
    rw [List.head?_eq_none_iff.mp hbegin]
    rfl
  · next hbegin => exact MultiMap.erase_begin? hbegin

theorem lookup_removeFirst {key : List UInt8}
    (h : s.removeFirst.phmHTTPRequestKeys.lookup key = some phri) :
    s.phmHTTPRequestKeys.lookup key = some phri := by
  unfold removeFirst at h
  split at h
  · exact h
  · exact (lookup_of_erase h).2

theorem Consistent.removeFirst (h : Consistent s) : Consistent s.removeFirst := by
  have hentries := entries_removeFirst s
  have hkeys : ∀ key phri, s.removeFirst.phmHTTPRequestKeys.lookup key = some phri →
      (s.removeFirst.infos phri).bHTTPRequestKey = key := by
    intro key phri hkey
    rw [infos_removeFirst]
    exact h.keys key phri (lookup_removeFirst hkey)
  have htimes : ∀ e ∈ s.removeFirst.mmHTTPRequestKeys.entries,
      (s.removeFirst.infos e.2).tTimestamp = e.1 ∧ IsTime e.1 := by
    rw [hentries, infos_removeFirst]
    exact fun e he => h.times e (List.mem_of_mem_tail he)
  refine ⟨?_, ?_, ?_, hkeys, htimes⟩
  · rw [hentries]
    unfold RequestKeys.removeFirst
    split
    · next hbegin =>
      have hnil := List.head?_eq_none_iff.mp hbegin
      have hsame := h.same
      rw [hnil] at hsame ⊢
      exact hsame
    · next tTimestamp phri hbegin =>
      obtain ⟨rest, hcons⟩ := List.head?_eq_some_iff.mp hbegin
      have hmem : (tTimestamp, phri) ∈ s.mmHTTPRequestKeys.entries := by
        rw [hcons]
        exact List.mem_cons_self
      have hperm := values_perm_erase (h.lookup_key hmem)
      have hsame := hperm.symm.trans h.same
      rw [hcons, List.map_cons] at hsame
      rw [hcons, List.tail_cons]
      exact hsame.cons_inv
  · rw [hentries]
    unfold RequestKeys.removeFirst
    split
    · next hbegin =>
      have hnil := List.head?_eq_none_iff.mp hbegin
      have hallocated := h.allocated
      rw [hnil] at hallocated ⊢
      exact hallocated
    · next tTimestamp phri hbegin =>
      obtain ⟨rest, hcons⟩ := List.head?_eq_some_iff.mp hbegin
      have hallocated := h.allocated.erase phri
      rw [hcons, List.map_cons, List.erase_cons_head] at hallocated
      rw [hcons, List.tail_cons]
      exact hallocated
  · unfold RequestKeys.removeFirst
    split
    · exact h.nodup
    · exact h.nodup.erase _

/-- What several turns of the loop leave. -/
theorem iterate_removeFirst (n : ℕ) (s : RequestKeys) :
    (removeFirst^[n] s).infos = s.infos ∧
      (removeFirst^[n] s).mmHTTPRequestKeys.entries = s.mmHTTPRequestKeys.entries.drop n ∧
      (∀ key phri, (removeFirst^[n] s).phmHTTPRequestKeys.lookup key = some phri →
        s.phmHTTPRequestKeys.lookup key = some phri) ∧
      (Consistent s → Consistent (removeFirst^[n] s)) := by
  induction n generalizing s with
  | zero => exact ⟨rfl, rfl, fun _ _ h => h, fun h => h⟩
  | succ n ih =>
    obtain ⟨hinfos, hentries, hlookup, hconsistent⟩ := ih s.removeFirst
    rw [Function.iterate_succ_apply]
    refine ⟨hinfos.trans (infos_removeFirst s), ?_, ?_, fun h => hconsistent h.removeFirst⟩
    · rw [hentries, entries_removeFirst, List.drop_tail]
    · exact fun key phri h => lookup_removeFirst (hlookup key phri h)

/-- **A retention pass** drops the records in front that its comparison takes for too old. -/
theorem Consistent.entries_retention (h : Consistent s) (tNow : Int) :
    (s.retention ulRetentionInSeconds tNow).mmHTTPRequestKeys.entries =
      s.mmHTTPRequestKeys.entries.dropWhile fun e => Expired ulRetentionInSeconds tNow e.1 := by
  unfold retention numberToBeRemoved
  rw [(iterate_removeFirst _ s).2.1, drop_length_takeWhile]
  have hcongr : ∀ l : List (Int × ℕ), (∀ e ∈ l, (s.infos e.2).tTimestamp = e.1) →
      (l.dropWhile fun e => Expired ulRetentionInSeconds tNow (s.infos e.2).tTimestamp) =
        l.dropWhile fun e => Expired ulRetentionInSeconds tNow e.1 := by
    intro l hl
    induction l with
    | nil => rfl
    | cons e l ih =>
      rw [List.dropWhile_cons, List.dropWhile_cons, hl e List.mem_cons_self,
        ih fun e' he' => hl e' (List.mem_cons_of_mem _ he')]
  exact hcongr _ fun e he => (h.times e he).1

/-- A record is older than the retention allows. -/
def TooOld (ulRetentionInSeconds : UInt64) (tNow tTimestamp : Int) : Prop :=
  (ulRetentionInSeconds.toNat : Int) < tNow - tTimestamp

instance (ulRetentionInSeconds : UInt64) (tNow tTimestamp : Int) :
    Decidable (TooOld ulRetentionInSeconds tNow tTimestamp) := inferInstanceAs (Decidable (_ < _))

/-- The comparison finds what is too old. -/
theorem TooOld.expired {tTimestamp : Int} (h : TooOld ulRetentionInSeconds tNow tTimestamp)
    (hnow : IsTime tNow) (htime : IsTime tTimestamp) :
    Expired ulRetentionInSeconds tNow tTimestamp := by
  unfold TooOld at h
  unfold IsTime at hnow htime
  unfold Expired
  rw [Int.emod_eq_of_lt (by omega) (by omega)]
  exact h

/-- **What is promised of the keys**: the containers hold the same records, and a retention pass
removes those that are too old and no others. -/
def KeepsKeys (ulRetentionInSeconds : UInt64) (s : RequestKeys) (a : Action) (s' : RequestKeys) :
    Prop :=
  Consistent s' ∧ ∀ tNow, a = .retention tNow → s'.mmHTTPRequestKeys.entries =
    s.mmHTTPRequestKeys.entries.filter fun e => ¬TooOld ulRetentionInSeconds tNow e.1

/-- The first record that is not too old, if there is one, is not taken for too old: it is not of
the future, or the wrapped difference does not exceed the limit. -/
def StopsInTime (ulRetentionInSeconds : UInt64) (s : RequestKeys) (a : Action) : Prop :=
  ∀ tNow, a = .retention tNow →
    ∀ e ∈ (s.mmHTTPRequestKeys.entries.dropWhile fun e =>
      TooOld ulRetentionInSeconds tNow e.1).head?, ¬Expired ulRetentionInSeconds tNow e.1

/-- **Every call keeps the containers in step.** -/
theorem Consistent.step (h : Consistent s) (hstep : step ulRetentionInSeconds s a = some s') :
    Consistent s' := by
  cases a with
  | save newWorks phri tNow pbHTTPRequestKey pbHTTPRequest =>
    obtain ⟨⟨hnew, hnow⟩, hsome⟩ := Option.ite_none_right_eq_some.mp hstep
    cases hsome
    exact h.save hnew hnow newWorks true
  | mark newWorks phri tNow pbHTTPRequestKey =>
    obtain ⟨⟨hnew, hnow⟩, hsome⟩ := Option.ite_none_right_eq_some.mp hstep
    cases hsome
    have hsaved : Consistent (s.markHTTPRequestKeyAsFailed newWorks phri tNow pbHTTPRequestKey).2 :=
      h.save hnew hnow newWorks false
    exact ⟨hsaved.same, hsaved.allocated, hsaved.nodup, hsaved.keys, hsaved.times⟩
  | retention tNow =>
    obtain ⟨hnow, hsome⟩ := Option.ite_none_right_eq_some.mp hstep
    cases hsome
    have hpass : Consistent (s.retention ulRetentionInSeconds tNow) :=
      (iterate_removeFirst _ s).2.2.2 h
    exact ⟨hpass.same, hpass.allocated, hpass.nodup, hpass.keys, hpass.times⟩

theorem Consistent.keepsKeys_iff (h : Consistent s)
    (hstep : RequestKeys.step ulRetentionInSeconds s a = some s') :
    KeepsKeys ulRetentionInSeconds s a s' ↔ StopsInTime ulRetentionInSeconds s a := by
  unfold KeepsKeys
  rw [and_iff_right (h.step hstep)]
  refine forall_congr' fun tNow => ?_
  refine imp_congr_right ?_
  rintro rfl
  obtain ⟨hnow, hsome⟩ := Option.ite_none_right_eq_some.mp hstep
  cases hsome
  show (s.retention ulRetentionInSeconds tNow).mmHTTPRequestKeys.entries = _ ↔ _
  have hold : ∀ x y : Int × ℕ, x.1 ≤ y.1 → TooOld ulRetentionInSeconds tNow y.1 →
      TooOld ulRetentionInSeconds tNow x.1 := by
    intro x y hxy hy
    unfold TooOld at hy ⊢
    omega
  rw [h.entries_retention tNow, ← dropWhile_eq_filter hold s.mmHTTPRequestKeys.sorted]
  exact dropWhile_eq_iff fun e he hold => hold.expired hnow (h.times e he).2

/-- **The keys in every run.**  The containers hold the same records and each pass removes exactly
what is too old, if and only if no pass finds a record that is not too old, and the first such one,
too old all the same. -/
theorem keepsKeys_run_iff (ulRetentionInSeconds : UInt64) (actions : List Action) :
    Always (step ulRetentionInSeconds) (KeepsKeys ulRetentionInSeconds) initial actions ↔
      Always (step ulRetentionInSeconds) (fun s a _ => StopsInTime ulRetentionInSeconds s a) initial
        actions := by
  refine always_iff_of_invariant ?_ ?_ consistent_initial actions
  · exact fun s a s' h hstep => h.keepsKeys_iff hstep
  · exact fun s a s' h hstep _ => h.step hstep

/-- A key is saved, the clock is set back, and the key is removed. -/
theorem not_keepsKeys_of_future :
    ¬Always (step 10) (KeepsKeys 10) initial [.save true 0 100 [107] [117], .retention 99] := by
  intro h
  have hkept := ((h _ rfl).2 _ rfl).1.2 99 rfl
  exact absurd hkept (by decide +kernel)

/-! ### Failed keys -/

/-- **What a mark promises**: the keys that were marked as failed are reported as such. -/
def Reported (s : RequestKeys) : Prop :=
  ∀ key ∈ s.marked,
    s.getLocalPathNameUsingHTTPRequestKey key = .error .httpRequestKeyIsMarkedAsFailed

/-- A mark that can be made finds no record of a request for its key. -/
def MarksInTime (s : RequestKeys) (a : Action) : Prop :=
  ∀ phri tNow key, a = .mark true phri tNow key →
    ∀ phri' ∈ s.phmHTTPRequestKeys.lookup key, (s.infos phri').bIsHTTPRequestSuccess = false

theorem reported_iff {key : List UInt8} :
    s.getLocalPathNameUsingHTTPRequestKey key = .error .httpRequestKeyIsMarkedAsFailed ↔
      ∃ phri, s.phmHTTPRequestKeys.lookup key = some phri ∧
        (s.infos phri).bIsHTTPRequestSuccess = false := by
  unfold getLocalPathNameUsingHTTPRequestKey
  cases hkey : s.phmHTTPRequestKeys.lookup key with
  | none =>
    refine iff_of_false ?_ ?_
    · intro h
      cases h
    · rintro ⟨phri, h, -⟩
      cases h
  | some phri =>
    dsimp only
    cases hsuccess : (s.infos phri).bIsHTTPRequestSuccess with
    | false =>
      rw [if_neg Bool.false_ne_true]
      exact iff_of_true rfl ⟨phri, rfl, hsuccess⟩
    | true =>
      rw [if_pos rfl]
      refine iff_of_false ?_ ?_
      · intro h
        cases h
      · rintro ⟨phri', h, hfalse⟩
        cases h
        rw [hsuccess] at hfalse
        cases hfalse

/-- Saving for a key leaves the records that are there. -/
theorem Consistent.lookup_save (h : Consistent s) (hnew : phri ∉ s.allocated) (newWorks : Bool)
    (tNow : Int) (pbHTTPRequestKey pbHTTPRequest : List UInt8) (bIsHTTPRequestSuccess : Bool)
    {key : List UInt8} {phri' : ℕ} (hkey : s.phmHTTPRequestKeys.lookup key = some phri') :
    (s.saveHTTPRequestKey newWorks phri tNow pbHTTPRequestKey pbHTTPRequest
        bIsHTTPRequestSuccess).2.phmHTTPRequestKeys.lookup key = some phri' ∧
      (s.saveHTTPRequestKey newWorks phri tNow pbHTTPRequestKey pbHTTPRequest
        bIsHTTPRequestSuccess).2.infos phri' = s.infos phri' := by
  have hne : phri' ≠ phri := by
    rintro rfl
    exact hnew (h.mem_allocated_of_lookup hkey)
  unfold saveHTTPRequestKey
  split
  · exact ⟨hkey, rfl⟩
  · dsimp only
    by_cases hmem : pbHTTPRequestKey ∈ s.phmHTTPRequestKeys
    · rw [insertWithoutDuplication_of_mem hmem, if_pos rfl]
      exact ⟨hkey, Function.update_of_ne hne _ _⟩
    · rw [insertWithoutDuplication_of_notMem hmem, if_neg (fun h => Bool.noConfusion h)]
      refine ⟨?_, Function.update_of_ne hne _ _⟩
      have hother : key ≠ pbHTTPRequestKey := by
        rintro rfl
        exact hmem (mem_of_lookup hkey)
      exact (AList.lookup_insert_ne hother).trans hkey

/-- **A mark that succeeds** is reported when it finds no record of a request. -/
theorem Consistent.reported_mark_iff (h : Consistent s) (hnew : phri ∉ s.allocated) (tNow : Int)
    (key : List UInt8) :
    (s.markHTTPRequestKeyAsFailed true phri tNow key).2.getLocalPathNameUsingHTTPRequestKey key =
        .error .httpRequestKeyIsMarkedAsFailed ↔
      ∀ phri' ∈ s.phmHTTPRequestKeys.lookup key, (s.infos phri').bIsHTTPRequestSuccess = false := by
  rw [reported_iff]
  cases hkey : s.phmHTTPRequestKeys.lookup key with
  | none =>
    refine iff_of_true ⟨phri, ?_⟩ ?_
    · have hmem : key ∉ s.phmHTTPRequestKeys := AList.lookup_eq_none.mp hkey
      unfold markHTTPRequestKeyAsFailed saveHTTPRequestKey
      dsimp only
      rw [if_neg (fun h => Bool.noConfusion h), insertWithoutDuplication_of_notMem hmem,
        if_neg (fun h => Bool.noConfusion h)]
      refine ⟨AList.lookup_insert _, ?_⟩
      show (Function.update s.infos phri ⟨key, [], false, tNow⟩ phri).bIsHTTPRequestSuccess = false
      rw [Function.update_self]
    · intro phri' h
      cases h
  | some phri' =>
    obtain ⟨hlookup, hinfo⟩ := h.lookup_save hnew true tNow key [] false hkey
    constructor
    · rintro ⟨p, hp, hfalse⟩ q hq
      cases hq
      obtain rfl : phri' = p := Option.some.inj (hlookup.symm.trans hp)
      exact hinfo ▸ hfalse
    · intro hall
      exact ⟨phri', hlookup, (congrArg _ hinfo).trans (hall phri' rfl)⟩

/-- Saving for a key leaves what is reported. -/
theorem Consistent.reported_save (h : Consistent s) (hreported : Reported s)
    (hnew : phri ∉ s.allocated) (newWorks : Bool) (tNow : Int)
    (pbHTTPRequestKey pbHTTPRequest : List UInt8) (bIsHTTPRequestSuccess : Bool)
    {key : List UInt8} (hkey : key ∈ s.marked) :
    (s.saveHTTPRequestKey newWorks phri tNow pbHTTPRequestKey pbHTTPRequest
      bIsHTTPRequestSuccess).2.getLocalPathNameUsingHTTPRequestKey key =
        .error .httpRequestKeyIsMarkedAsFailed := by
  obtain ⟨phri', hlookup, hfailed⟩ := reported_iff.mp (hreported key hkey)
  obtain ⟨hlookup', hinfo⟩ := h.lookup_save hnew newWorks tNow pbHTTPRequestKey pbHTTPRequest
    bIsHTTPRequestSuccess hlookup
  exact reported_iff.mpr ⟨phri', hlookup', (congrArg _ hinfo).trans hfailed⟩

theorem marked_save (newWorks : Bool) (phri : ℕ) (tNow : Int)
    (pbHTTPRequestKey pbHTTPRequest : List UInt8) (bIsHTTPRequestSuccess : Bool) (s : RequestKeys) :
    (s.saveHTTPRequestKey newWorks phri tNow pbHTTPRequestKey pbHTTPRequest
      bIsHTTPRequestSuccess).2.marked = s.marked := by
  unfold saveHTTPRequestKey
  split
  · rfl
  · dsimp only
    split
    · rfl
    · rfl

/-- A mark succeeds whenever there is memory for it. -/
theorem mark_ok (phri : ℕ) (tNow : Int) (key : List UInt8) (s : RequestKeys) :
    (s.markHTTPRequestKeyAsFailed true phri tNow key).1 = .ok () := by
  unfold markHTTPRequestKeyAsFailed saveHTTPRequestKey
  rw [if_neg (fun h => Bool.noConfusion h)]
  dsimp only
  split
  · rfl
  · rfl

/-- A retention pass leaves what is reported of the keys that it leaves. -/
theorem reported_retention (hreported : Reported s) (ulRetentionInSeconds : UInt64) (tNow : Int)
    {key : List UInt8} (hkey : key ∈ s.marked)
    (hleft : key ∈ (s.retention ulRetentionInSeconds tNow).phmHTTPRequestKeys) :
    (s.retention ulRetentionInSeconds tNow).getLocalPathNameUsingHTTPRequestKey key =
      .error .httpRequestKeyIsMarkedAsFailed := by
  obtain ⟨phri, hlookup, hfailed⟩ := reported_iff.mp (hreported key hkey)
  obtain ⟨hinfos, -, hback, -⟩ :=
    iterate_removeFirst (s.numberToBeRemoved ulRetentionInSeconds tNow) s
  obtain ⟨phri', hlookup'⟩ := Option.isSome_iff_exists.mp (AList.lookup_isSome.mpr hleft)
  obtain rfl : phri' = phri := Option.some.inj ((hback key phri' hlookup').symm.trans hlookup)
  refine reported_iff.mpr ⟨phri', hlookup', ?_⟩
  exact (congrArg (fun infos : ℕ → HTTPRequestKeyInfo => (infos phri').bIsHTTPRequestSuccess)
    hinfos).trans hfailed

theorem Consistent.reported_step_iff (h : Consistent s) (hreported : Reported s)
    (hstep : RequestKeys.step ulRetentionInSeconds s a = some s') :
    Reported s' ↔ MarksInTime s a := by
  cases a with
  | save newWorks phri tNow pbHTTPRequestKey pbHTTPRequest =>
    obtain ⟨⟨hnew, hnow⟩, hsome⟩ := Option.ite_none_right_eq_some.mp hstep
    cases hsome
    refine iff_of_true ?_ ?_
    · intro key hkey
      rw [marked_save] at hkey
      exact h.reported_save hreported hnew newWorks tNow pbHTTPRequestKey pbHTTPRequest true hkey
    · intro phri' tNow' key hmark
      cases hmark
  | mark newWorks phri tNow pbHTTPRequestKey =>
    obtain ⟨⟨hnew, hnow⟩, hsome⟩ := Option.ite_none_right_eq_some.mp hstep
    cases hsome
    have hold : ∀ key ∈ s.marked,
        (s.markHTTPRequestKeyAsFailed newWorks phri tNow
          pbHTTPRequestKey).2.getLocalPathNameUsingHTTPRequestKey key =
            .error .httpRequestKeyIsMarkedAsFailed :=
      fun key hkey => h.reported_save hreported hnew newWorks tNow pbHTTPRequestKey [] false hkey
    cases newWorks with
    | false =>
      refine iff_of_true hold ?_
      intro phri' tNow' key hmark
      cases hmark
    | true =>
      have hnewly := h.reported_mark_iff hnew tNow pbHTTPRequestKey
      unfold Reported
      dsimp only
      rw [if_pos (mark_ok phri tNow pbHTTPRequestKey s)]
      constructor
      · rintro hall phri' tNow' key hmark
        cases hmark
        exact hnewly.mp (hall _ List.mem_cons_self)
      · intro hmarks key hkey
        rcases List.mem_cons.mp hkey with rfl | hkey
        · exact hnewly.mpr (hmarks phri tNow key rfl)
        · exact hold key hkey
  | retention tNow =>
    obtain ⟨hnow, hsome⟩ := Option.ite_none_right_eq_some.mp hstep
    cases hsome
    refine iff_of_true ?_ ?_
    · intro key hkey
      obtain ⟨hmarked, hleft⟩ := List.mem_filter.mp hkey
      exact reported_retention hreported ulRetentionInSeconds tNow hmarked
        (of_decide_eq_true hleft)
    · intro phri' tNow' key hmark
      cases hmark

/-- **The marks of every run.**  In a run the keys that were marked as failed are reported as such,
until a retention pass removes them, exactly when no mark finds a record of a request. -/
theorem reported_run_iff (ulRetentionInSeconds : UInt64) (actions : List Action) :
    Always (step ulRetentionInSeconds) (fun _ _ s' => Reported s') initial actions ↔
      Always (step ulRetentionInSeconds) (fun s a _ => MarksInTime s a) initial actions := by
  have hinitial : Consistent initial ∧ Reported initial := by
    refine ⟨consistent_initial, ?_⟩
    intro key hkey
    cases hkey
  have hiff : ∀ s a s', Consistent s ∧ Reported s → step ulRetentionInSeconds s a = some s' →
      (Reported s' ↔ MarksInTime s a) :=
    fun s a s' h hstep => h.1.reported_step_iff h.2 hstep
  have hkeep : ∀ s a s', Consistent s ∧ Reported s → step ulRetentionInSeconds s a = some s' →
      Reported s' → Consistent s' ∧ Reported s' :=
    fun s a s' h hstep hreported => ⟨h.1.step hstep, hreported⟩
  exact always_iff_of_invariant hiff hkeep hinitial actions

/-- A key is saved for a request and marked as failed afterwards. -/
theorem not_reported_after_save :
    ¬Always (step 10) (fun _ _ s' => Reported s') initial
      [.save true 0 100 [107] [117], .mark true 1 101 [107]] := by
  intro h
  have hreported := ((h _ rfl).2 _ rfl).1 [107] (by decide +kernel)
  exact absurd hreported (by decide +kernel)

end RequestKeys

end CatraLibraries
