/-!
# Sets of names

A finite set of names, kept as a strictly increasing list. Names are ordered by the numbers of their
characters, so two sets with the same members are the same value.
-/

namespace ScriptHost

structure NameSet where
  names : List String
  increasing : names.Pairwise (· < ·)
  deriving DecidableEq

namespace NameSet

def empty : NameSet := ⟨[], .nil⟩

/-- Puts a name into its place in an increasing list. -/
def place (x : String) : List String → List String
  | [] => [x]
  | y :: ys => if x < y then x :: y :: ys else if x = y then y :: ys else y :: place x ys

theorem mem_place {a x : String} {ys : List String} : a ∈ place x ys ↔ a = x ∨ a ∈ ys := by
  induction ys with
  | nil => simp [place]
  | cons y ys ih =>
    simp only [place]
    split
    · simp
    · split
      · simp_all
      · simp only [List.mem_cons, ih]
        grind

theorem increasing_place {x : String} {ys : List String} (h : ys.Pairwise (· < ·)) :
    (place x ys).Pairwise (· < ·) := by
  induction ys with
  | nil => simp [place]
  | cons y ys ih =>
    obtain ⟨hy, hys⟩ := List.pairwise_cons.1 h
    simp only [place]
    split
    · next hlt =>
      refine List.pairwise_cons.2 ⟨fun a ha => ?_, h⟩
      rcases List.mem_cons.1 ha with rfl | ha
      · exact hlt
      · exact String.lt_trans hlt (hy a ha)
    · next hlt =>
      split
      · exact h
      · next hne =>
        refine List.pairwise_cons.2 ⟨fun a ha => ?_, ih hys⟩
        rcases mem_place.1 ha with rfl | ha
        · exact Std.lt_of_le_of_ne (String.not_lt.1 hlt) (Ne.symm hne)
        · exact hy a ha

def insert (s : NameSet) (x : String) : NameSet :=
  ⟨place x s.names, increasing_place s.increasing⟩

def ofList (xs : List String) : NameSet :=
  xs.foldl insert empty

/-- The names of either set. -/
def union (s t : NameSet) : NameSet :=
  t.names.foldl insert s

instance : Membership String NameSet := ⟨fun s x => x ∈ s.names⟩

theorem mem_def {x : String} {s : NameSet} : x ∈ s ↔ x ∈ s.names := Iff.rfl

@[simp] theorem not_mem_empty {x : String} : ¬ x ∈ empty := by simp [mem_def, empty]

@[simp] theorem mem_insert {a x : String} {s : NameSet} : a ∈ s.insert x ↔ a = x ∨ a ∈ s :=
  mem_place

theorem mem_foldl_insert {a : String} {xs : List String} {s : NameSet} :
    a ∈ xs.foldl insert s ↔ a ∈ s ∨ a ∈ xs := by
  induction xs generalizing s with
  | nil => simp
  | cons x xs ih =>
    simp only [List.foldl_cons, ih, mem_insert, List.mem_cons]
    grind

@[simp] theorem mem_ofList {a : String} {xs : List String} : a ∈ ofList xs ↔ a ∈ xs := by
  simp [ofList, mem_foldl_insert]

@[simp] theorem mem_union {a : String} {s t : NameSet} : a ∈ s.union t ↔ a ∈ s ∨ a ∈ t :=
  mem_foldl_insert

end NameSet

end ScriptHost
