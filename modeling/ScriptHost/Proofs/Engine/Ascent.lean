import Mathlib
import ScriptHost.Engine.Selection
import ScriptHost.Proofs.Path.Ancestry

/-! # The way up to a language hint

A hint is looked for at a script and then at one node after the other above it, as the resolver
answers. Nothing is known of these answers: they may lead in circles, stay where they are or point
anywhere, so a look-up only goes on while paths become shorter. `Surroundings.nearest_hint` says
what that comes to. Whatever the resolver, and even if it answers differently from time to time, it
is asked at most once more than the path of the script has bytes; the hint is the first one on the
way as long as that gets shorter; and where the nodes form a tree by their paths nothing is cut off,
so it is the nearest of the script and all that lies above it. -/

namespace ScriptHost

/-- A path that begins another and has fewer characters has fewer bytes, too. -/
theorem Path.utf8ByteSize_lt_of_prefix {above path : String}
    (hbegins : above.toList <+: path.toList) (hlt : above.length < path.length) :
    above.utf8ByteSize < path.utf8ByteSize := by
  obtain ⟨rest, hrest⟩ := hbegins
  have hpath : path = above ++ String.ofList rest := by
    rw [← String.toList_inj, String.toList_append, String.toList_ofList, hrest]
  have hpos : (String.ofList rest).utf8ByteSize ≠ 0 := by
    intro hzero
    rw [String.utf8ByteSize_eq_zero_iff] at hzero
    rw [hpath, hzero, String.append_empty] at hlt
    omega
  rw [hpath, String.utf8ByteSize_append]
  omega

namespace Surroundings

/-- The length of the path of a node, in bytes. -/
def pathSize (s : Surroundings) (r : ResourceId) : Nat :=
  (s.resource r).path.utf8ByteSize

/-! ## One step of a look-up -/

theorem climb_some (s : Surroundings) (resolver : Resolver) (extension : String) (length : Nat)
    (r : ResourceId) :
    s.climb resolver extension length (some r) =
      if s.pathSize r < length then s.languageHint r resolver extension else none := by
  rw [climb]
  rfl

/-- A look-up ends at a hint, or goes on from the node above if that has a shorter path. -/
theorem languageHint_eq (s : Surroundings) (r : ResourceId) (resolver : Resolver)
    (extension : String) :
    s.languageHint r resolver extension =
      match (s.resource r).hint extension, resolver.parent (s.resource r).path with
      | some hint, _ => some hint
      | none, none => none
      | none, some q =>
        if s.pathSize q < s.pathSize r then s.languageHint q resolver extension else none := by
  unfold languageHint
  cases (s.resource r).hint extension with
  | some hint => rfl
  | none =>
      cases resolver.parent (s.resource r).path with
      | none => rw [climb]
      | some q => exact s.climb_some resolver extension _ q

/-! ## What the resolver is asked for -/

/-- The look-up of a hint by any way to ask for what lies above a path. -/
def lookUp {m : Type → Type} [Monad m] (s : Surroundings) (ask : String → m (Option ResourceId))
    (extension : String) (r : ResourceId) : m (Option String) :=
  match (s.resource r).hint extension with
  | some hint => pure (some hint)
  | none => do
    match ← ask (s.resource r).path with
    | none => pure none
    | some q => if s.pathSize q < s.pathSize r then s.lookUp ask extension q else pure none
  termination_by s.pathSize r

/-- Asks somebody who has a memory, and notes the path that is asked for. -/
def noting {σ : Type} (ask : String → StateM σ (Option ResourceId)) (path : String) :
    StateM (σ × List String) (Option ResourceId) := fun (memory, asked) =>
  let (answer, memory) := ask path memory
  (answer, memory, asked ++ [path])

/-- The paths that a look-up asks for, one after the other, in a state of the memory. -/
def asked {σ : Type} (s : Surroundings) (ask : String → StateM σ (Option ResourceId))
    (extension : String) (r : ResourceId) (memory : σ) : List String :=
  (s.lookUp (noting ask) extension r (memory, [])).2.2

/-- Asking a resolver, which has nothing to remember. -/
def asking (resolver : Resolver) (path : String) : StateM Unit (Option ResourceId) :=
  pure (resolver.parent path)

/-- Noting what is asked for changes nothing, and what a look-up with a resolver finds is the
hint. -/
theorem lookUp_noting (s : Surroundings) (resolver : Resolver) (extension : String) (r : ResourceId)
    (notes : Unit × List String) :
    (s.lookUp (noting (asking resolver)) extension r notes).1 =
      s.languageHint r resolver extension := by
  induction hsize : s.pathSize r using Nat.strong_induction_on generalizing r notes with
  | _ n ih =>
      rw [lookUp, languageHint_eq]
      cases (s.resource r).hint extension with
      | some hint => rfl
      | none =>
          simp only [bind, StateT.bind, noting, asking, pure, StateT.pure]
          cases resolver.parent (s.resource r).path with
          | none => rfl
          | some q =>
              dsimp only
              split
              · next hlt => exact ih _ (hsize ▸ hlt) q _ rfl
              · rfl

/-- **Every path that is asked for is shorter than the one before**, so there are not many of them.
The induction is on the path of the node, whose length is what the look-up compares. -/
theorem notes_lookUp {σ : Type} (s : Surroundings) (ask : String → StateM σ (Option ResourceId))
    (extension : String) (r : ResourceId) (memory : σ) (before : List String) :
    ∃ asked, (s.lookUp (noting ask) extension r (memory, before)).2.2 = before ++ asked ∧
      asked.Pairwise (fun a b => b.utf8ByteSize < a.utf8ByteSize) ∧
      (∀ path ∈ asked, path.utf8ByteSize ≤ s.pathSize r) ∧ asked.length ≤ s.pathSize r + 1 := by
  induction hsize : s.pathSize r using Nat.strong_induction_on generalizing r memory before with
  | _ n ih =>
      rw [lookUp]
      cases (s.resource r).hint extension with
      | some hint => exact ⟨[], (List.append_nil before).symm, .nil, by simp, by simp⟩
      | none =>
          simp only [bind, StateT.bind, noting]
          rcases ask (s.resource r).path memory with ⟨_ | q, memory'⟩
          · exact ⟨[(s.resource r).path], rfl, by simp, by simp [← hsize, pathSize], by simp⟩
          · dsimp only
            split
            · next hlt =>
                obtain ⟨asked, heq, hshorter, hle, hlength⟩ :=
                  ih _ (hsize ▸ hlt) q memory' (before ++ [(s.resource r).path]) rfl
                refine ⟨(s.resource r).path :: asked, ?_, ?_, ?_, ?_⟩
                · rw [heq, List.append_assoc, List.singleton_append]
                · refine List.pairwise_cons.mpr ⟨?_, hshorter⟩
                  intro path hpath
                  exact Nat.lt_of_le_of_lt (hle path hpath) hlt
                · intro path hpath
                  rcases List.mem_cons.mp hpath with rfl | hpath
                  · exact Nat.le_of_eq hsize
                  · have := hle path hpath
                    omega
                · rw [List.length_cons]
                  omega
            · exact ⟨[(s.resource r).path], rfl, by simp, by simp [← hsize, pathSize], by simp⟩

/-! ## The first hint on the way -/

/-- The node that lies a number of steps above another, by the answers of a resolver. -/
def up? (s : Surroundings) (resolver : Resolver) : Nat → ResourceId → Option ResourceId
  | 0, r => some r
  | n + 1, r => (resolver.parent (s.resource r).path).bind (s.up? resolver n)

/-- A hint stands a number of steps above a node, none stands before it, and each of the steps leads
to a shorter path. -/
structure FirstHint (s : Surroundings) (resolver : Resolver) (extension : String) (r : ResourceId)
    (n : Nat) (hint : String) : Prop where
  found : ∃ q, s.up? resolver n r = some q ∧ (s.resource q).hint extension = some hint
  before : ∀ k < n, ∀ q, s.up? resolver k r = some q → (s.resource q).hint extension = none
  shorter : ∀ k < n, ∀ q p, s.up? resolver k r = some q → s.up? resolver (k + 1) r = some p →
    s.pathSize p < s.pathSize q

section

variable {s : Surroundings} {resolver : Resolver} {extension : String} {r : ResourceId}

theorem up?_succ_of_parent {q : ResourceId} (h : resolver.parent (s.resource r).path = some q)
    (n : Nat) : s.up? resolver (n + 1) r = s.up? resolver n q := by
  rw [up?, h, Option.bind_some]

/-- The last step of so many. -/
theorem up?_succ (n : Nat) :
    s.up? resolver (n + 1) r =
      (s.up? resolver n r).bind fun q => resolver.parent (s.resource q).path := by
  induction n generalizing r with
  | zero =>
      rw [up?, up?, Option.bind_some]
      cases resolver.parent (s.resource r).path <;> rfl
  | succ n ih =>
      rw [up?]
      cases h : resolver.parent (s.resource r).path with
      | none => rw [up?, h]; rfl
      | some q => rw [Option.bind_some, ih, up?_succ_of_parent h]

theorem firstHint_zero {hint : String} :
    s.FirstHint resolver extension r 0 hint ↔ (s.resource r).hint extension = some hint := by
  constructor
  · rintro ⟨⟨q, hq, hhint⟩, -, -⟩
    cases hq
    exact hhint
  · intro hhint
    exact ⟨⟨r, rfl, hhint⟩, by omega, by omega⟩

theorem firstHint_succ {n : Nat} {hint : String} :
    s.FirstHint resolver extension r (n + 1) hint ↔
      (s.resource r).hint extension = none ∧ ∃ q, resolver.parent (s.resource r).path = some q ∧
        s.pathSize q < s.pathSize r ∧ s.FirstHint resolver extension q n hint := by
  constructor
  · rintro ⟨⟨p, hp, hhint⟩, hbefore, hshorter⟩
    obtain ⟨q, hq, -⟩ := Option.bind_eq_some_iff.mp hp
    have hup := up?_succ_of_parent (s := s) hq
    refine ⟨hbefore 0 (Nat.succ_pos n) r rfl, q, hq, ?_, ⟨p, hup n ▸ hp, hhint⟩, ?_, ?_⟩
    · exact hshorter 0 (Nat.succ_pos n) r q rfl (hup 0)
    · intro k hk x hx
      exact hbefore (k + 1) (Nat.succ_lt_succ hk) x ((hup k).trans hx)
    · intro k hk x y hx hy
      exact hshorter (k + 1) (Nat.succ_lt_succ hk) x y ((hup k).trans hx) ((hup (k + 1)).trans hy)
  · rintro ⟨hnone, q, hq, hlt, ⟨p, hp, hhint⟩, hbefore, hshorter⟩
    have hup := up?_succ_of_parent (s := s) hq
    refine ⟨⟨p, (hup n).trans hp, hhint⟩, ?_, ?_⟩
    · intro k hk x hx
      cases k with
      | zero =>
          cases hx
          exact hnone
      | succ k => exact hbefore k (Nat.lt_of_succ_lt_succ hk) x (hup k ▸ hx)
    · intro k hk x y hx hy
      cases k with
      | zero =>
          cases hx
          rw [hup 0] at hy
          cases hy
          exact hlt
      | succ k =>
          exact hshorter k (Nat.lt_of_succ_lt_succ hk) x y (hup k ▸ hx) (hup (k + 1) ▸ hy)

/-- **A look-up finds the first hint**, as long as the way gets shorter. -/
theorem languageHint_eq_some_iff {hint : String} :
    s.languageHint r resolver extension = some hint ↔
      ∃ n, s.FirstHint resolver extension r n hint := by
  induction hsize : s.pathSize r using Nat.strong_induction_on generalizing r with
  | _ size ih =>
      rw [languageHint_eq]
      -- The first hint stands at the node itself, or it is the first one above the next node.
      have hsplit : (∃ n, s.FirstHint resolver extension r n hint) ↔
          (s.resource r).hint extension = some hint ∨ (s.resource r).hint extension = none ∧
            ∃ q, resolver.parent (s.resource r).path = some q ∧ s.pathSize q < s.pathSize r ∧
              ∃ n, s.FirstHint resolver extension q n hint := by
        constructor
        · rintro ⟨_ | n, hfirst⟩
          · exact .inl (firstHint_zero.mp hfirst)
          · obtain ⟨hnone, q, hq, hlt, hrest⟩ := firstHint_succ.mp hfirst
            exact .inr ⟨hnone, q, hq, hlt, n, hrest⟩
        · rintro (hhint | ⟨hnone, q, hq, hlt, n, hrest⟩)
          · exact ⟨0, firstHint_zero.mpr hhint⟩
          · exact ⟨n + 1, firstHint_succ.mpr ⟨hnone, q, hq, hlt, hrest⟩⟩
      rw [hsplit]
      cases hhint : (s.resource r).hint extension with
      | some found => simp
      | none =>
          cases hparent : resolver.parent (s.resource r).path with
          | none => simp
          | some q =>
              dsimp only
              split
              · next hlt =>
                  rw [ih _ (hsize ▸ hlt) rfl]
                  simp [hlt]
              · next hlt => simp [hlt]

end

/-! ## Trees -/

/-- The script and what lies above it by its path, a number of steps up. -/
def lineage? (s : Surroundings) (resolver : Resolver) (r : ResourceId) : Nat → Option ResourceId
  | 0 => some r
  | n + 1 => (Path.above? (n + 1) (s.resource r).path).bind resolver.resolve

/-- What a resolver finds stands at the path where it was found, it finds something at every path
above the script, and the node above a path is what it finds there. -/
structure IsTreeAbove (s : Surroundings) (resolver : Resolver) (r : ResourceId) : Prop where
  parent : ∀ path, resolver.parent path = (Path.parent? path).bind resolver.resolve
  own : ∀ path q, resolver.resolve path = some q → (s.resource q).path = path
  full : ∀ n path, Path.above? (n + 1) (s.resource r).path = some path →
    (resolver.resolve path).isSome = true

section

variable {s : Surroundings} {resolver : Resolver} {extension : String} {r : ResourceId}

/-- The node above is the one at the path above. -/
theorem IsTreeAbove.parent_path (h : s.IsTreeAbove resolver r) {q p : ResourceId}
    (hp : resolver.parent (s.resource q).path = some p) :
    Path.parent? (s.resource q).path = some (s.resource p).path := by
  rw [h.parent] at hp
  obtain ⟨path, habove, hresolve⟩ := Option.bind_eq_some_iff.mp hp
  rw [h.own path p hresolve]
  exact habove

/-- In a tree the way up leads through all that lies above. -/
theorem IsTreeAbove.up?_eq_lineage? (h : s.IsTreeAbove resolver r) (n : Nat) :
    s.up? resolver n r = s.lineage? resolver r n := by
  induction n generalizing r with
  | zero => rfl
  | succ n ih =>
      rw [up?, lineage?, Path.above?, h.parent]
      cases habove : Path.parent? (s.resource r).path with
      | none => rfl
      | some path =>
          have hsome : (resolver.resolve path).isSome = true := by
            apply h.full 0
            rw [Path.above?, habove]
            rfl
          obtain ⟨q, hq⟩ := Option.isSome_iff_exists.mp hsome
          have hpath : (s.resource q).path = path := h.own path q hq
          have hq' : s.IsTreeAbove resolver q := by
            refine ⟨h.parent, h.own, ?_⟩
            intro k above hk
            apply h.full (k + 1)
            rw [Path.above?, habove, Option.bind_some, ← hpath]
            exact hk
          rw [Option.bind_some, Option.bind_some, hq, Option.bind_some, ih hq']
          cases n with
          | zero =>
              show some q = (some path).bind resolver.resolve
              rw [Option.bind_some, hq]
          | succ n => rw [lineage?, hpath]

/-- In a tree every step up leads to a shorter path, so none is refused. -/
theorem IsTreeAbove.shorter (h : s.IsTreeAbove resolver r) {n : Nat} {q p : ResourceId}
    (hq : s.up? resolver n r = some q) (hp : s.up? resolver (n + 1) r = some p) :
    s.pathSize p < s.pathSize q := by
  rw [up?_succ, hq, Option.bind_some] at hp
  obtain ⟨-, hbegins, hlt⟩ := Path.parent?_above (h.parent_path hp)
  exact Path.utf8ByteSize_lt_of_prefix hbegins hlt

theorem IsTreeAbove.firstHint_iff (h : s.IsTreeAbove resolver r) {n : Nat} {hint : String} :
    s.FirstHint resolver extension r n hint ↔
      (∃ q, s.lineage? resolver r n = some q ∧ (s.resource q).hint extension = some hint) ∧
        ∀ k < n, ∀ q, s.lineage? resolver r k = some q → (s.resource q).hint extension = none := by
  simp only [← h.up?_eq_lineage?]
  constructor
  · rintro ⟨hfound, hbefore, -⟩
    exact ⟨hfound, hbefore⟩
  · rintro ⟨hfound, hbefore⟩
    exact ⟨hfound, hbefore, fun _ _ _ _ hq hp => h.shorter hq hp⟩

/-- In a tree there is no hint only if none of the nodes gives one. -/
theorem IsTreeAbove.languageHint_eq_none_iff (h : s.IsTreeAbove resolver r) :
    s.languageHint r resolver extension = none ↔
      ∀ n q, s.lineage? resolver r n = some q → (s.resource q).hint extension = none := by
  constructor
  · intro hnone
    by_contra hsome
    push Not at hsome
    -- Of all the nodes with a hint the nearest would be found.
    classical
    obtain ⟨q, hq, hgives⟩ := Nat.find_spec hsome
    obtain ⟨hint, hhint⟩ := Option.ne_none_iff_exists'.mp hgives
    have hfirst : s.FirstHint resolver extension r (Nat.find hsome) hint := by
      refine h.firstHint_iff.mpr ⟨⟨q, hq, hhint⟩, ?_⟩
      intro k hk p hp
      have hless := Nat.find_min hsome hk
      push Not at hless
      exact hless p hp
    rw [languageHint_eq_some_iff.mpr ⟨_, hfirst⟩] at hnone
    cases hnone
  · intro hall
    cases hhint : s.languageHint r resolver extension with
    | none => rfl
    | some hint =>
        obtain ⟨n, hfirst⟩ := languageHint_eq_some_iff.mp hhint
        obtain ⟨⟨q, hq, hgives⟩, -⟩ := h.firstHint_iff.mp hfirst
        rw [hall n q hq] at hgives
        cases hgives

end

/-- **A look-up comes to an end, at the nearest hint.** Whoever is asked for the nodes above is
asked for shorter and shorter paths, and at most once more than the path of the script has bytes. A
resolver leads to the first hint on the way, as long as that gets shorter, and in a tree to the hint
of the nearest node of the script and all that lies above it. -/
theorem nearest_hint (s : Surroundings) (resolver : Resolver) (extension : String)
    (script : ResourceId) :
    (∀ (σ : Type) (ask : String → StateM σ (Option ResourceId)) (memory : σ),
      (s.asked ask extension script memory).length ≤ (s.resource script).path.utf8ByteSize + 1 ∧
        (s.asked ask extension script memory).Pairwise fun a b =>
          b.utf8ByteSize < a.utf8ByteSize) ∧
      (∀ notes, (s.lookUp (noting (asking resolver)) extension script notes).1 =
        s.languageHint script resolver extension) ∧
      (∀ hint, s.languageHint script resolver extension = some hint ↔
        ∃ n, s.FirstHint resolver extension script n hint) ∧
      (s.IsTreeAbove resolver script →
        (∀ hint, s.languageHint script resolver extension = some hint ↔
          ∃ n, (∃ q, s.lineage? resolver script n = some q ∧
              (s.resource q).hint extension = some hint) ∧
            ∀ k < n, ∀ q, s.lineage? resolver script k = some q →
              (s.resource q).hint extension = none) ∧
        (s.languageHint script resolver extension = none ↔
          ∀ n q, s.lineage? resolver script n = some q →
            (s.resource q).hint extension = none)) := by
  refine ⟨?_, s.lookUp_noting resolver extension script, fun hint => languageHint_eq_some_iff, ?_⟩
  · intro σ ask memory
    obtain ⟨asked, heq, hshorter, -, hlength⟩ := s.notes_lookUp ask extension script memory []
    rw [List.nil_append] at heq
    unfold Surroundings.asked
    rw [heq]
    exact ⟨hlength, hshorter⟩
  · intro htree
    refine ⟨fun hint => ?_, htree.languageHint_eq_none_iff⟩
    simp only [languageHint_eq_some_iff, htree.firstHint_iff]

/-- Every path is that of a node, and the root alone gives a hint. -/
def rooted : Surroundings where
  resource r := {
    path := r.name
    opening := .ok ⟨[], none⟩
    hint := fun extension => if extension = "x" ∧ r.name = "/" then some "b" else none }
  resolver _ := { resolve := fun path => some ⟨path⟩ }
  request _ := { path := "/", resource := ⟨"/"⟩, resolver := ⟨""⟩, body := [], tracked := false }
  response _ := ⟨.discard⟩
  output _ := {}

/-- From below a doubled slash. -/
theorem nearest_hint_doubled :
    let tree := rooted.resolver ⟨""⟩
    rooted.IsTreeAbove tree ⟨"/a//c.x"⟩ ∧
      rooted.lineage? tree ⟨"/a//c.x"⟩ 1 = some ⟨"/a/"⟩ ∧
      rooted.languageHint ⟨"/a//c.x"⟩ tree "x" = some "b" ∧
      rooted.languageHint ⟨"/a//c.x"⟩ tree "y" = none ∧
      (rooted.asked (asking tree) "x" ⟨"/a//c.x"⟩ ()).length ≤ 8 ∧
      rooted.asked (asking tree) "x" ⟨"/a//c.x"⟩ () = ["/a//c.x", "/a/"] := by
  intro tree
  have htree : rooted.IsTreeAbove tree ⟨"/a//c.x"⟩ := by
    refine ⟨fun path => rfl, ?_, fun n path _ => rfl⟩
    intro path q hq
    cases hq
    rfl
  have hfolder : rooted.lineage? tree ⟨"/a//c.x"⟩ 1 = some ⟨"/a/"⟩ := by cbv
  have hroot : rooted.lineage? tree ⟨"/a//c.x"⟩ 2 = some ⟨"/"⟩ := by cbv
  obtain ⟨hasked, -, -, hnearest⟩ := rooted.nearest_hint tree "x" ⟨"/a//c.x"⟩
  obtain ⟨-, -, -, hother⟩ := rooted.nearest_hint tree "y" ⟨"/a//c.x"⟩
  refine ⟨htree, hfolder, ?_, ?_, (hasked Unit (asking tree) ()).1, by cbv⟩
  · refine ((hnearest htree).1 "b").mpr ⟨2, ⟨⟨"/"⟩, hroot, by decide⟩, ?_⟩
    intro k hk q hq
    obtain rfl | rfl : k = 0 ∨ k = 1 := by omega
    · cases hq
      decide
    · rw [hfolder] at hq
      cases hq
      decide
  · refine (hother htree).2.mpr ?_
    intro n q _
    rfl

/-- A resolver that answers with the script itself is asked once. -/
example :
    let circle : Resolver := { resolve := fun _ => none, parent := fun _ => some ⟨"/c.x"⟩ }
    rooted.languageHint ⟨"/c.x"⟩ circle "x" = none ∧
      rooted.asked (asking circle) "x" ⟨"/c.x"⟩ () = ["/c.x"] := by
  intro circle
  exact ⟨by cbv, by cbv⟩

end Surroundings

end ScriptHost
