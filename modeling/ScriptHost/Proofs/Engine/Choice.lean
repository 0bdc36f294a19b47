import ScriptHost.Proofs.Engine.Precedence

/-! # Which engines can be chosen

An engine is looked up by a key, among the candidates for an extension, or for a script with a hint
or without (`Snapshot.Finds`). Whatever the way, it is one of those that are published; for a script
it is one that claims the extension of the path, unless there is none and a hint decides. -/

namespace ScriptHost.Snapshot

/-! ## Scripts -/

theorem mem_candidates {s : Snapshot} {e : String} {d : Descriptor} :
    d ∈ s.candidates e ↔ d ∈ s.engines ∧ Text.lower e ∈ d.extensions := by
  simp [candidates, List.mem_filter]

/-- An engine is chosen among those that claim the extension of the path, or by a hint if there are
none. -/
theorem select_some {s : Snapshot} {path : String} {hint : Option String} {d : Descriptor}
    (h : s.select path hint = some d) :
    d ∈ s.engines ∧
      ((∃ e, Path.extension? path = some e ∧ Text.lower e ∈ d.extensions) ∨
        (hint.isSome = true ∧ ∀ e, Path.extension? path = some e →
          ∀ d' ∈ s.engines, Text.lower e ∉ d'.extensions)) := by
  have hcandidate : ∀ d', d' ∈ ((Path.extension? path).map s.candidates).getD [] →
      d' ∈ s.engines ∧ ∃ e, Path.extension? path = some e ∧ Text.lower e ∈ d'.extensions := by
    intro d' hd'
    cases he : Path.extension? path with
    | none => simp [he] at hd'
    | some e =>
        rw [he, Option.map_some, Option.getD_some, mem_candidates] at hd'
        exact ⟨hd'.1, e, rfl, hd'.2⟩
  unfold select at h
  dsimp only at h
  cases hint with
  | none =>
      obtain ⟨hmem, he⟩ := hcandidate d (List.mem_of_head? h)
      exact ⟨hmem, .inl he⟩
  | some hint =>
      dsimp only at h
      split at h
      · next d' hfind =>
          cases h
          obtain ⟨hmem, he⟩ := hcandidate d (List.mem_of_find?_eq_some hfind)
          exact ⟨hmem, .inl he⟩
      · split at h
        · next hempty =>
            refine ⟨List.mem_of_find?_eq_some h, .inr ⟨rfl, ?_⟩⟩
            intro e he d' hd' hclaims
            rw [he, Option.map_some, Option.getD_some, List.isEmpty_iff] at hempty
            have : d' ∈ s.candidates e := mem_candidates.mpr ⟨hd', hclaims⟩
            rw [hempty] at this
            cases this
        · obtain ⟨hmem, he⟩ := hcandidate d (List.mem_of_head? h)
          exact ⟨hmem, .inl he⟩

/-! ## Every way -/

/-- What can be found in a snapshot: by a key of one kind or of any, among the candidates for an
extension, or for a script. -/
inductive Finds (s : Snapshot) : Descriptor → Prop where
  | owner {kind : Association} {key : String} {d : Descriptor} :
      s.owner? kind key = some d → Finds s d
  | resolved {key : String} {d : Descriptor} : s.resolve? key = some d → Finds s d
  | candidate {extension : String} {d : Descriptor} : d ∈ s.candidates extension → Finds s d
  | selected {path : String} {hint : Option String} {d : Descriptor} :
      s.select path hint = some d → Finds s d

theorem owner?_mem {generation : Nat} {ds : List Descriptor} {kind : Association} {key : String}
    {d : Descriptor} (h : (build generation ds).owner? kind key = some d) : d ∈ ds := by
  rw [owner?_build] at h
  exact (ranked_perm ds).mem_iff.mp (List.mem_of_find?_eq_some h)

/-- **Only what is published can be found.** -/
theorem Finds.mem {generation : Nat} {ds : List Descriptor} {d : Descriptor}
    (h : (build generation ds).Finds d) : d ∈ ds := by
  cases h with
  | owner howner => exact owner?_mem howner
  | resolved hresolved =>
      unfold resolve? at hresolved
      simp only [Option.orElse_eq_orElse, Option.orElse_eq_or, Option.or_eq_some_iff] at hresolved
      rcases hresolved with (h | ⟨-, h⟩) | ⟨-, h⟩
      · exact owner?_mem h
      · exact owner?_mem h
      · exact owner?_mem h
  | candidate hmem => exact (ranked_perm ds).mem_iff.mp (mem_candidates.mp hmem).1
  | selected hselect => exact (ranked_perm ds).mem_iff.mp (select_some hselect).1

end ScriptHost.Snapshot
