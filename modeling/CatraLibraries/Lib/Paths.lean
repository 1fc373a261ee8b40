/-
# Path names

A path name is cut at its slashes into components.  The empty component and "." stay where they
are, ".." goes up, and every other one is a name to go down to.  There is nothing above the root,
so ".." stays there.

`resolve` gives the names from the root to where a path leads, without looking at symbolic links.
`climb` is the same for a path whose beginning is not known: how many levels it goes up, and the
names that it goes down then.  `walk_eq` connects the two.
-/
import Mathlib.Data.List.DropRight
import Mathlib.Data.List.Infix

namespace Paths

/-- The bytes between two slashes. -/
abbrev Name := List UInt8

/-- The components of a path. -/
def components (path : List UInt8) : List Name := path.splitOn 47

/-- A component that stays where it is. -/
def Stays (c : Name) : Prop := c = [] ∨ c = [46]

instance (c : Name) : Decidable (Stays c) := inferInstanceAs (Decidable (_ ∨ _))

/-- One component, from the names of a directory on. -/
def go (names : List Name) (c : Name) : List Name :=
  if Stays c then names else if c = [46, 46] then names.dropLast else names ++ [c]

/-- Components one after the other. -/
def walk (names : List Name) (cs : List Name) : List Name := cs.foldl go names

/-- The names that a path leads to; `cwd` are those of the working directory. -/
def resolve (cwd : List Name) (path : List UInt8) : List Name :=
  walk (if path.head? = some 47 then [] else cwd) (components path)

/-- One component behind `up` levels up and some names down. -/
def climbStep (up : ℕ × List Name) (c : Name) : ℕ × List Name :=
  if Stays c then up
  else if c = [46, 46] then
    if up.2 = [] then (up.1 + 1, []) else (up.1, up.2.dropLast)
  else (up.1, up.2 ++ [c])

/-- How many levels the components go up, and what they go down then. -/
def climb (cs : List Name) : ℕ × List Name := cs.foldl climbStep (0, [])

variable {names cwd : List Name} {cs : List Name} {c : Name} {dir path : List UInt8}

theorem walk_append (names cs ds : List Name) : walk names (cs ++ ds) = walk (walk names cs) ds :=
  List.foldl_append

theorem walk_stays (h : ∀ c ∈ cs, Stays c) (names : List Name) : walk names cs = names := by
  induction cs with
  | nil => rfl
  | cons c cs ih =>
    have hgo : go names c = names := if_pos (h c List.mem_cons_self)
    show walk (go names c) cs = names
    rw [hgo]
    exact ih fun d hd => h d (List.mem_cons_of_mem _ hd)

theorem climb_concat (cs : List Name) (c : Name) : climb (cs ++ [c]) = climbStep (climb cs) c :=
  List.foldl_concat _ _ _ _

/-- **Up and then down.**  Components take from a directory the levels that they climb, and append
the names that they go down. -/
theorem walk_eq (names cs : List Name) :
    walk names cs = names.take (names.length - (climb cs).1) ++ (climb cs).2 := by
  induction cs using List.reverseRecOn with
  | nil =>
    show names = names.take (names.length - 0) ++ []
    rw [Nat.sub_zero, List.take_length, List.append_nil]
  | append_singleton cs c ih =>
    rw [walk_append, climb_concat]
    show go (walk names cs) c = _
    rw [ih]
    unfold go climbStep
    split
    · rfl
    · split
      · -- ".." takes the last name that was gone down, or one more level
        split
        · next hnil =>
          rw [hnil, List.append_nil, List.append_nil, List.dropLast_eq_take, List.take_take,
            List.length_take]
          congr 1
          omega
        · next hne => rw [List.dropLast_append_of_ne_nil hne]
      · rw [List.append_assoc]

theorem components_append (dir path : List UInt8) :
    components (dir ++ 47 :: path) = components dir ++ components path :=
  List.splitOn_append_cons_self dir path

/-- Slashes at its end do not matter to a path. -/
theorem resolve_slash (hne : path ≠ []) : resolve cwd (path ++ [47]) = resolve cwd path := by
  unfold resolve
  rw [components_append, walk_append]
  have hstay : ∀ c ∈ components [], Stays c := by
    intro c hc
    rw [List.mem_singleton.mp hc]
    exact Or.inl rfl
  rw [walk_stays hstay]
  congr 1
  cases path with
  | nil => exact absurd rfl hne
  | cons b path => rfl

/-- A path behind the name of a directory. -/
theorem resolve_append (hne : dir ≠ []) :
    resolve cwd (dir ++ 47 :: path) = walk (resolve cwd dir) (components path) := by
  unfold resolve
  rw [components_append, walk_append]
  cases dir with
  | nil => exact absurd rfl hne
  | cons b dir => rfl

/-- A path from the root on. -/
theorem resolve_root (path : List UInt8) : resolve cwd (47 :: path) = walk [] (components path) := by
  have hcut := components_append [] path
  rw [List.nil_append] at hcut
  unfold resolve
  rw [hcut, walk_append]
  rfl

/-- A suffix without slashes goes to the last component. -/
theorem components_append_suffix (path : List UInt8) {suffix : List UInt8} (hsuffix : 47 ∉ suffix) :
    ∃ cs last, components path = cs ++ [last] ∧ components (path ++ suffix) = cs ++ [last ++ suffix] := by
  induction path with
  | nil => exact ⟨[], [], rfl, List.splitOn_eq_singleton hsuffix⟩
  | cons b path ih =>
    obtain ⟨cs, last, hpath, happend⟩ := ih
    unfold components at hpath happend ⊢
    by_cases hb : b = 47
    · subst hb
      refine ⟨[] :: cs, last, ?_, ?_⟩
      · rw [List.splitOn_cons_eq_if_modifyHead, if_pos (beq_self_eq_true _), hpath]
        rfl
      · rw [List.cons_append, List.splitOn_cons_eq_if_modifyHead, if_pos (beq_self_eq_true _), happend]
        rfl
    · have hne : ¬(b == 47) = true := fun h => hb (eq_of_beq h)
      cases cs with
      | nil =>
        refine ⟨[], b :: last, ?_, ?_⟩
        · rw [List.splitOn_cons_eq_if_modifyHead, if_neg hne, hpath]
          rfl
        · rw [List.cons_append, List.splitOn_cons_eq_if_modifyHead, if_neg hne, happend]
          rfl
      | cons c cs =>
        refine ⟨(b :: c) :: cs, last, ?_, ?_⟩
        · rw [List.splitOn_cons_eq_if_modifyHead, if_neg hne, hpath]
          rfl
        · rw [List.cons_append, List.splitOn_cons_eq_if_modifyHead, if_neg hne, happend]
          rfl

/-- **A suffix makes another name**, when it has no slash and is longer than "..". -/
theorem resolve_append_suffix_ne (cwd : List Name) (path : List UInt8) {suffix : List UInt8}
    (hsuffix : 47 ∉ suffix) (hlength : 2 < suffix.length) :
    resolve cwd path ≠ resolve cwd (path ++ suffix) := by
  obtain ⟨cs, last, hpath, happend⟩ := components_append_suffix path hsuffix
  have hstart : (if (path ++ suffix).head? = some 47 then [] else cwd) =
      if path.head? = some 47 then [] else cwd := by
    cases path with
    | nil =>
      have hhead : suffix.head? ≠ some 47 := fun h => hsuffix (List.mem_of_mem_head? h)
      rw [List.nil_append, if_neg hhead]
      rfl
    | cons b path => rfl
  have hlong : 2 < (last ++ suffix).length := by
    rw [List.length_append]
    omega
  have hstays : ¬Stays (last ++ suffix) := by
    rintro (h | h)
    · rw [h] at hlong
      exact absurd hlong (by decide)
    · rw [h] at hlong
      exact absurd hlong (by decide)
  have hup : last ++ suffix ≠ [46, 46] := by
    intro h
    rw [h] at hlong
    exact absurd hlong (by decide)
  unfold resolve
  rw [hstart, hpath, happend, walk_append, walk_append]
  generalize walk (if path.head? = some 47 then [] else cwd) cs = names
  show go names last ≠ go names (last ++ suffix)
  have hgo : go names (last ++ suffix) = names ++ [last ++ suffix] := by
    unfold go
    rw [if_neg hstays, if_neg hup]
  rw [hgo]
  intro h
  unfold go at h
  split at h
  · have := congrArg List.length h
    rw [List.length_append, List.length_singleton] at this
    omega
  · split at h
    · have := congrArg List.length h
      rw [List.length_append, List.length_singleton, List.length_dropLast] at this
      omega
    · rw [List.append_cancel_left_eq] at h
      have := congrArg List.length (List.cons.inj h).1
      rw [List.length_append] at this
      omega

theorem resolve_rdropWhile (dir : List UInt8) (h : dir.rdropWhile (· = 47) ≠ []) :
    resolve cwd (dir.rdropWhile (· = 47)) = resolve cwd dir := by
  induction dir using List.reverseRecOn with
  | nil => rfl
  | append_singleton dir b ih =>
    rw [List.rdropWhile_concat] at h ⊢
    by_cases hb : b = 47
    · subst hb
      rw [if_pos (by simp)] at h ⊢
      have hdir : dir ≠ [] := by
        rintro rfl
        exact h (List.rdropWhile_nil _)
      rw [resolve_slash hdir]
      exact ih h
    · rw [if_neg (by simpa using hb)]

/-- A directory of slashes only is the root. -/
theorem resolve_slashes (hne : dir ≠ []) (h : dir.rdropWhile (· = 47) = []) :
    resolve cwd dir = [] := by
  have hall : ∀ b ∈ dir, b = 47 := by
    intro b hb
    have := List.rdropWhile_eq_nil_iff.mp h b hb
    simpa using this
  have hstays : ∀ c ∈ components dir, Stays c := by
    clear hne h
    induction dir with
    | nil =>
      intro c hc
      rw [List.mem_singleton.mp hc]
      exact Or.inl rfl
    | cons b dir ih =>
      obtain rfl := hall b List.mem_cons_self
      have hcut := components_append [] dir
      rw [List.nil_append] at hcut
      intro c hc
      rw [hcut] at hc
      rcases List.mem_append.mp hc with hc | hc
      · rw [List.mem_singleton.mp hc]
        exact Or.inl rfl
      · exact ih (fun b hb => hall b (List.mem_cons_of_mem _ hb)) c hc
  unfold resolve
  rw [walk_stays hstays]
  cases dir with
  | nil => exact absurd rfl hne
  | cons b dir =>
    rw [hall b List.mem_cons_self]
    rfl

/-- **Where a path that climbs stays inside a directory**: it comes back through the names that it
left. -/
theorem prefix_walk_iff (names cs : List Name) :
    names <+: walk names cs ↔ names.drop (names.length - (climb cs).1) <+: (climb cs).2 := by
  have h : names.take (names.length - (climb cs).1) ++ names.drop (names.length - (climb cs).1) <+:
      names.take (names.length - (climb cs).1) ++ (climb cs).2 ↔
      names.drop (names.length - (climb cs).1) <+: (climb cs).2 :=
    List.prefix_append_right_inj _
  rw [List.take_append_drop] at h
  rw [walk_eq]
  exact h

end Paths
