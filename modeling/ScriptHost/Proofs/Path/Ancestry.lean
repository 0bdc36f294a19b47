import Mathlib.Data.List.DropRight
import ScriptHost.Change

/-! # What lies above a path

Going up from a path, segment by segment (`Path.above?`), leads to ever shorter beginnings of it, so
it comes to an end. `isBelow` compares texts instead: a path lies below another if it goes on behind
that one and a slash, and slashes at the end of the other do not count. Whatever one comes to on the
way up, the path lies below it (`isBelow_of_above?`), with any number of slashes in any place. -/

namespace ScriptHost

namespace Path

/-- The path that lies a number of steps above. -/
def above? : Nat → String → Option String
  | 0, path => some path
  | n + 1, path => (parent? path).bind (above? n)

/-- The path with slashes behind it. -/
def slashed (path : String) (n : Nat) : String :=
  path ++ String.ofList (List.replicate n '/')

/-! ## Slashes at the end -/

@[simp] theorem toList_slashed (path : String) (n : Nat) :
    (slashed path n).toList = path.toList ++ List.replicate n '/' := by
  unfold slashed
  rw [String.toList_append, String.toList_ofList]

theorem slashed_eq_self_iff {path : String} {n : Nat} : slashed path n = path ↔ n = 0 := by
  rw [← String.toList_inj, toList_slashed, List.append_right_eq_self, List.replicate_eq_nil_iff]

/-- A text that does not end in a slash. -/
def IsBare (cs : List Char) : Prop := cs.getLast? ≠ some '/'

instance (cs : List Char) : Decidable (IsBare cs) :=
  inferInstanceAs (Decidable (cs.getLast? ≠ some '/'))

theorem dropSlashes_eq (cs : List Char) : dropSlashes cs = cs.rdropWhile (· == '/') := rfl

theorem isBare_dropSlashes (cs : List Char) : IsBare (dropSlashes cs) := by
  intro hlast
  rw [dropSlashes_eq] at hlast
  obtain ⟨hne, hlast⟩ := List.mem_getLast?_eq_getLast hlast
  exact List.rdropWhile_last_not _ _ hne (beq_iff_eq.mpr hlast.symm)

theorem dropSlashes_of_isBare {cs : List Char} (h : IsBare cs) : dropSlashes cs = cs := by
  rw [dropSlashes_eq, List.rdropWhile_eq_self_iff]
  intro hne hslash
  refine h ?_
  rw [List.getLast?_eq_some_getLast hne, beq_iff_eq.mp hslash]

theorem dropSlashes_append (cs : List Char) (n : Nat) :
    dropSlashes (cs ++ List.replicate n '/') = dropSlashes cs := by
  induction n with
  | zero => rw [List.replicate_zero, List.append_nil]
  | succ n ih =>
      rw [List.replicate_succ', ← List.append_assoc, dropSlashes_eq,
        List.rdropWhile_concat_pos (· == '/') _ '/' rfl]
      exact ih

/-- A text is what is left of it, and slashes. -/
theorem exists_dropSlashes (cs : List Char) :
    ∃ n, cs = dropSlashes cs ++ List.replicate n '/' := by
  refine ⟨(cs.rtakeWhile (· == '/')).length, ?_⟩
  have hslashes : cs.rtakeWhile (· == '/') =
      List.replicate (cs.rtakeWhile (· == '/')).length '/' := by
    refine List.eq_replicate_of_mem fun c hc => ?_
    have hc' : (c == '/') = true := List.mem_rtakeWhile_imp (p := fun x => x == '/') hc
    exact beq_iff_eq.mp hc'
  rw [← hslashes, dropSlashes_eq]
  exact List.rdropWhile_append_rtakeWhile.symm

/-! ## One step up -/

/-- The path above is where the last segment begins: the slash in front of that, if nothing else
stands there, or what stands before the slash. -/
theorem parent?_some {path above : String} (h : parent? path = some above) :
    ∃ rest, (above.toList = ['/'] ∧ rest ≠ [] ∧ path.toList = '/' :: rest) ∨
      path.toList = above.toList ++ '/' :: rest := by
  obtain ⟨n, hpath⟩ := exists_dropSlashes path.toList
  unfold parent? at h
  split at h
  · cases h
  · next name hsplit =>
      cases h
      obtain ⟨hcs, -⟩ := splitLast?_eq_some_iff.mp hsplit
      refine ⟨name ++ List.replicate n '/', .inl ⟨rfl, ?_, ?_⟩⟩
      · -- Without a name the slash would stand at the end.
        intro hnil
        obtain ⟨rfl, -⟩ := List.append_eq_nil_iff.mp hnil
        refine isBare_dropSlashes path.toList ?_
        rw [hcs]
        rfl
      · rw [hpath, hcs]
        rfl
  · next before name _ hsplit =>
      cases h
      obtain ⟨hcs, -⟩ := splitLast?_eq_some_iff.mp hsplit
      refine ⟨name ++ List.replicate n '/', .inr ?_⟩
      rw [hpath, hcs, String.toList_ofList, List.append_assoc, List.cons_append]

end Path

/-! ## Below -/

/-- **What it is to lie below another path**: to go on behind it and a slash, where that one is
taken without the slashes at its end. -/
theorem isBelow_iff {above path : String} :
    isBelow above path = true ↔ ∃ base rest n, Path.IsBare base ∧
      above.toList = base ++ List.replicate n '/' ∧ path.toList = base ++ '/' :: rest := by
  unfold isBelow
  rw [List.isPrefixOf_iff_prefix]
  constructor
  · rintro ⟨rest, hrest⟩
    obtain ⟨n, habove⟩ := Path.exists_dropSlashes above.toList
    refine ⟨Path.dropSlashes above.toList, rest, n, Path.isBare_dropSlashes _, habove, ?_⟩
    rw [← hrest, List.append_assoc, List.singleton_append]
  · rintro ⟨base, rest, n, hbare, habove, hpath⟩
    rw [habove, Path.dropSlashes_append, Path.dropSlashes_of_isBare hbare, hpath]
    exact ⟨rest, by rw [List.append_assoc, List.singleton_append]⟩

/-- Slashes at the end of the upper path do not count. -/
theorem isBelow_slashed (above path : String) (n : Nat) :
    isBelow (Path.slashed above n) path = isBelow above path := by
  unfold isBelow
  rw [Path.toList_slashed, Path.dropSlashes_append]

/-- What goes on behind a path and a slash lies below it, be there slashes before that one. -/
theorem isBelow_of_append {above path : String} {rest : List Char}
    (h : path.toList = above.toList ++ '/' :: rest) : isBelow above path = true := by
  obtain ⟨n, habove⟩ := Path.exists_dropSlashes above.toList
  refine isBelow_iff.mpr ⟨_, List.replicate n '/' ++ rest, n, Path.isBare_dropSlashes _, habove, ?_⟩
  calc path.toList
      = Path.dropSlashes above.toList ++ (List.replicate n '/' ++ ['/'] ++ rest) := by
        rw [h, habove]
        simp [Path.dropSlashes_append, Path.dropSlashes_of_isBare (Path.isBare_dropSlashes _)]
    _ = Path.dropSlashes above.toList ++ '/' :: (List.replicate n '/' ++ rest) := by
        rw [← List.replicate_succ', List.replicate_succ, List.cons_append]

/-- A path lies below itself if it ends in a slash. -/
theorem isBelow_self_iff {path : String} :
    isBelow path path = true ↔ ¬ Path.IsBare path.toList := by
  constructor
  · intro h hbare
    obtain ⟨base, rest, n, hbase, hpath, hpath'⟩ := isBelow_iff.mp h
    -- Without a slash at the end the path is the base, which is shorter.
    have hdrop : Path.dropSlashes path.toList = base := by
      rw [hpath, Path.dropSlashes_append, Path.dropSlashes_of_isBare hbase]
    rw [Path.dropSlashes_of_isBare hbare] at hdrop
    have hlength := congrArg List.length hpath'
    rw [hdrop, List.length_append, List.length_cons] at hlength
    omega
  · intro hslash
    obtain ⟨n, hpath⟩ := Path.exists_dropSlashes path.toList
    cases n with
    | zero =>
        rw [List.replicate_zero, List.append_nil] at hpath
        exact absurd (hpath ▸ Path.isBare_dropSlashes path.toList) hslash
    | succ n =>
        have hbare := Path.isBare_dropSlashes path.toList
        exact isBelow_iff.mpr ⟨_, List.replicate n '/', n + 1, hbare, hpath, hpath⟩

/-- With slashes behind it a path lies below the path without. -/
theorem isBelow_slashed_succ (path : String) (n : Nat) :
    isBelow path (Path.slashed path (n + 1)) = true :=
  isBelow_of_append (Path.toList_slashed path (n + 1))

/-- What lies above the beginning of a path lies above the path. -/
theorem isBelow_of_prefix {above path longer : String} (h : isBelow above path = true)
    (hbegins : path.toList <+: longer.toList) : isBelow above longer = true := by
  unfold isBelow at h ⊢
  rw [List.isPrefixOf_iff_prefix] at h ⊢
  exact h.trans hbegins

namespace Path

/-- **The step lemma**: one step up leads to a shorter beginning, and the path lies below it. -/
theorem parent?_above {path above : String} (h : parent? path = some above) :
    isBelow above path = true ∧ above.toList <+: path.toList ∧ above.length < path.length := by
  obtain ⟨rest, ⟨habove, hrest, hpath⟩ | hpath⟩ := parent?_some h
  · refine ⟨isBelow_iff.mpr ⟨[], rest, 1, by decide, habove, hpath⟩, ?_, ?_⟩
    · rw [habove, hpath]
      exact ⟨rest, rfl⟩
    · rw [← String.length_toList, ← String.length_toList, habove, hpath, List.length_cons]
      exact Nat.succ_lt_succ (List.length_pos_iff.mpr hrest)
  · refine ⟨isBelow_of_append hpath, ⟨'/' :: rest, hpath.symm⟩, ?_⟩
    rw [← String.length_toList, ← String.length_toList, hpath, List.length_append, List.length_cons]
    omega

/-- Each step up takes a character at least. -/
theorem above?_some {n : Nat} {path above : String} (h : above? n path = some above) :
    above.toList <+: path.toList ∧ above.length + n ≤ path.length := by
  induction n generalizing path with
  | zero =>
      cases h
      exact ⟨List.prefix_refl _, Nat.le_refl _⟩
  | succ n ih =>
      obtain ⟨next, hnext, hrest⟩ := Option.bind_eq_some_iff.mp h
      obtain ⟨-, hbegins, hlt⟩ := parent?_above hnext
      obtain ⟨hbegins', hle⟩ := ih hrest
      exact ⟨hbegins'.trans hbegins, by omega⟩

/-- The way up ends. -/
theorem above?_eq_none {n : Nat} {path : String} (h : path.length < n) : above? n path = none := by
  cases habove : above? n path with
  | none => rfl
  | some above =>
      obtain ⟨-, hle⟩ := above?_some habove
      omega

/-- **A path lies below all that one comes to on the way up.** -/
theorem isBelow_of_above? {n : Nat} {path above : String} (h : above? (n + 1) path = some above) :
    isBelow above path = true := by
  induction n generalizing path with
  | zero =>
      obtain ⟨next, hnext, hrest⟩ := Option.bind_eq_some_iff.mp h
      cases hrest
      exact (parent?_above hnext).1
  | succ n ih =>
      obtain ⟨next, hnext, hrest⟩ := Option.bind_eq_some_iff.mp h
      exact isBelow_of_prefix (ih hrest) (parent?_above hnext).2.1

end Path

end ScriptHost
