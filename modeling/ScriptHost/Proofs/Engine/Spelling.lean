import ScriptHost.Proofs.Engine.Ascent
import ScriptHost.Proofs.Engine.Reachable
import ScriptHost.Proofs.Text.Letters
import ScriptHost.Template.Engine

/-! # How an extension and a hint are spelt

To choose an engine the case of letters does not count, neither in the extension of the script nor
in the language that a hint names, and two hints that differ in more are told apart by some
registry (`EngineRegistry.select_eq_iff`). Hints themselves are asked for by the extension as it is
written in the path, so a script may be given another hint, or none, where its extension is spelt in
another case. `EngineRegistry.spelling_shows_by_hint` says that this is the only way for the
spelling to show: nothing comes of it where all nodes on the way up give their hints in any case. -/

namespace ScriptHost

/-! ## The case of a hint -/

theorem Descriptor.matchesLanguage_congr {d : Descriptor} {a b : String}
    (h : Text.lower a = Text.lower b) : d.matchesLanguage a = d.matchesLanguage b := by
  unfold Descriptor.matchesLanguage Text.sameName
  rw [h]

namespace Snapshot

theorem candidates_congr {s : Snapshot} {a b : String} (h : Text.lower a = Text.lower b) :
    s.candidates a = s.candidates b := by
  unfold candidates
  rw [h]

/-- Paths of one extension and hints for one language lead to one engine. -/
theorem select_congr {s : Snapshot} {path path' : String} {a b : Option String}
    (hpath : Text.EqualFold (Path.extension? path) (Path.extension? path'))
    (hhint : Text.EqualFold a b) : s.select path a = s.select path' b := by
  have hcandidates : ((Path.extension? path).map s.candidates).getD [] =
      ((Path.extension? path').map s.candidates).getD [] := by
    cases he : Path.extension? path with
    | none =>
        rw [he, Text.equalFold_none_iff] at hpath
        rw [hpath]
    | some e =>
        rw [he] at hpath
        obtain ⟨e', he', hlower⟩ := Text.equalFold_some_iff.mp hpath
        rw [he']
        exact candidates_congr hlower
  unfold select
  rw [hcandidates]
  cases a with
  | none => rw [Text.equalFold_none_iff.mp hhint]
  | some language =>
      obtain ⟨language', rfl, hlower⟩ := Text.equalFold_some_iff.mp hhint
      have hmatches : (fun d : Descriptor => d.matchesLanguage language) =
          fun d => d.matchesLanguage language' := by
        funext d
        exact Descriptor.matchesLanguage_congr hlower
      dsimp only
      rw [hmatches]

/-- An engine that serves no extension and has no others beside it is chosen by a hint alone. -/
theorem isSome_select_iff {s : Snapshot} {d : Descriptor} (hd : s.engines = [d])
    (hextensions : d.extensions = []) (path : String) (hint : Option String) :
    (s.select path hint).isSome = true ↔
      ∃ language, hint = some language ∧ d.matchesLanguage language = true := by
  have hcandidates : ((Path.extension? path).map s.candidates).getD [] = [] := by
    cases Path.extension? path with
    | none => rfl
    | some e =>
        rw [Option.map_some, Option.getD_some]
        unfold candidates
        rw [hd, List.filter_cons_of_neg (by simp [hextensions]), List.filter_nil]
  unfold select
  rw [hcandidates, hd]
  cases hint with
  | none => simp
  | some language => simp [List.find?_singleton]

end Snapshot

/-! ## Telling hints apart -/

/-- Registers an engine for a language that serves no extension. -/
def speaking (language : String) : Registration :=
  .dynamic { Template.factory with languageName := language }
    { names := some [language], extensions := some [], mimeTypes := some [] }

/-- Such an engine is taken down as it is asked for. -/
theorem capture_speaking (language : String) (id : Nat) :
    ∃ d, Descriptor.capture { Template.factory with languageName := language } .dynamic id
        { names := some [language], extensions := some [], mimeTypes := some [] } = .ok d ∧
      d.languageName = language ∧ d.names = [language] ∧ d.extensions = [] := by
  have hname : Text.trim Template.factory.engineName ≠ "" := by
    have htrim : Text.trim Template.factory.engineName = "template" := by cbv
    rw [htrim]
    decide
  unfold Descriptor.capture
  dsimp only
  rw [if_neg hname, if_neg (by simp)]
  exact ⟨_, rfl, rfl, rfl, rfl⟩

namespace EngineRegistry

variable {ℓ : Type}

/-- What is published where nobody else is registered. -/
theorem engines_speaking {r : EngineRegistry ℓ} (hr : r.members.all = []) (language : String) :
    ∃ d, (r.apply (speaking language)).2.1.snapshot.engines = [d] ∧
      d.languageName = language ∧ d.names = [language] ∧ d.extensions = [] := by
  obtain ⟨d, hcapture, hfound⟩ := capture_speaking language r.nextId
  refine ⟨d, ?_, hfound⟩
  obtain ⟨⟨hplatform, hpackages⟩, hdynamic⟩ :
      (r.members.platform = [] ∧ r.members.packages.entries.flatMap Prod.snd = []) ∧
        r.members.dynamic = [] := by
    unfold Members.all at hr
    simpa only [List.append_eq_nil_iff] using hr
  have hall : ({ r.members with dynamic := r.members.dynamic ++ [d] } : Members).all = [d] := by
    unfold Members.all
    rw [hplatform, hpackages, hdynamic]
    rfl
  unfold speaking apply enroll
  simp only [captureAll, hcapture]
  unfold publish Snapshot.build
  dsimp only [Except.map]
  rw [hall]
  exact List.mergeSort_singleton d

/-- Where nobody else is registered, hints lead to the engine of the language that they name. -/
theorem select_speaking {r : EngineRegistry ℓ} (hr : r.members.all = []) (language path : String)
    (hint : Option String) :
    ((r.apply (speaking language)).2.1.snapshot.select path hint).isSome = true ↔
      Text.EqualFold hint (some language) := by
  obtain ⟨d, hd, hlanguage, hnames, hextensions⟩ := engines_speaking hr language
  rw [Snapshot.isSome_select_iff hd hextensions]
  have hmatches : ∀ hint,
      d.matchesLanguage hint = true ↔ Text.lower hint = Text.lower language := by
    intro hint
    unfold Descriptor.matchesLanguage
    rw [hlanguage, hnames, List.any_cons, List.any_nil, Bool.or_false, Bool.or_self,
      Text.sameName_iff, eq_comm]
  cases hint with
  | none => simp [Text.equalFold_none_iff]
  | some hint => simp [Text.equalFold_some_iff, hmatches]

/-- **Two hints come to the same in every registry only if they name one language.** Each of them
leads to an engine where that language alone is spoken. -/
theorem select_eq_iff {path path' : String} {a b : Option String}
    (hpath : Text.EqualFold (Path.extension? path) (Path.extension? path')) :
    (∀ r : EngineRegistry ℓ, r.Reachable →
      r.snapshot.select path a = r.snapshot.select path' b) ↔ Text.EqualFold a b := by
  constructor
  · intro hsame
    refine Text.equalFold_of_forall fun language => ?_
    have hempty : (EngineRegistry.empty : EngineRegistry ℓ).members.all = [] := rfl
    rw [← select_speaking hempty language path, ← select_speaking hempty language path',
      hsame _ (.apply _ .empty)]
  · intro hhint r _
    exact Snapshot.select_congr hpath hhint

end EngineRegistry

/-! ## Scripts that are spelt alike -/

namespace Surroundings

/-- Two scripts with the same hints and the same node above, whose paths differ in nothing but the
case of letters in their extensions. -/
structure Respelt (s : Surroundings) (resolver : Resolver) (script other : ResourceId)
    (e e' : String) : Prop where
  extension : Path.extension? (s.resource script).path = some e
  extension' : Path.extension? (s.resource other).path = some e'
  front : ∃ front, (s.resource script).path = front ++ e ∧ (s.resource other).path = front ++ e'
  lower : Text.lower e = Text.lower e'
  hint : (s.resource script).hint = (s.resource other).hint
  parent : resolver.parent (s.resource script).path = resolver.parent (s.resource other).path

section

variable {s : Surroundings} {resolver : Resolver} {script other : ResourceId} {e e' : String}

theorem Respelt.pathSize (h : s.Respelt resolver script other e e') :
    s.pathSize script = s.pathSize other := by
  obtain ⟨front, hscript, hother⟩ := h.front
  unfold Surroundings.pathSize
  rw [hscript, hother, String.utf8ByteSize_append, String.utf8ByteSize_append,
    ← Text.utf8ByteSize_lower e, ← Text.utf8ByteSize_lower e', h.lower]

/-- For one extension both are given the same hint. -/
theorem Respelt.languageHint (h : s.Respelt resolver script other e e') (extension : String) :
    s.languageHint script resolver extension = s.languageHint other resolver extension := by
  rw [languageHint_eq, languageHint_eq, h.hint, h.parent, h.pathSize]

/-- Every node on the way up gives the same hint for both spellings. -/
def AlikeAbove (s : Surroundings) (resolver : Resolver) (script : ResourceId) (e e' : String) :
    Prop :=
  ∀ n q, s.up? resolver n script = some q →
    Text.EqualFold ((s.resource q).hint e) ((s.resource q).hint e')

/-- If no node on the way up minds the spelling, a look-up does not. -/
theorem AlikeAbove.languageHint (h : s.AlikeAbove resolver script e e') :
    Text.EqualFold (s.languageHint script resolver e) (s.languageHint script resolver e') := by
  induction hsize : s.pathSize script using Nat.strong_induction_on generalizing script with
  | _ size ih =>
      have hown : Text.EqualFold ((s.resource script).hint e) ((s.resource script).hint e') :=
        h 0 script rfl
      rw [languageHint_eq, languageHint_eq]
      cases he : (s.resource script).hint e with
      | some hint =>
          rw [he] at hown
          obtain ⟨hint', he', hlower⟩ := Text.equalFold_some_iff.mp hown
          rw [he']
          exact congrArg some hlower
      | none =>
          rw [he, Text.equalFold_none_iff] at hown
          rw [hown]
          cases hparent : resolver.parent (s.resource script).path with
          | none => rfl
          | some q =>
              dsimp only
              split
              · next hlt =>
                  refine ih _ (hsize ▸ hlt) ?_ rfl
                  intro n p hp
                  exact h (n + 1) p ((up?_succ_of_parent hparent n).trans hp)
              · rfl

theorem Respelt.selectFor (h : s.Respelt resolver script other e e') (published : Snapshot) :
    published.selectFor s script resolver =
      published.select (s.resource script).path (s.languageHint script resolver e) := by
  unfold Snapshot.selectFor
  dsimp only
  rw [h.extension, Option.bind_some]

theorem Respelt.symm (h : s.Respelt resolver script other e e') :
    s.Respelt resolver other script e' e := by
  obtain ⟨front, hscript, hother⟩ := h.front
  exact ⟨h.extension', h.extension, ⟨front, hother, hscript⟩, h.lower.symm, h.hint.symm,
    h.parent.symm⟩

end

end Surroundings

namespace EngineRegistry

/-- **The spelling of an extension shows by the hint alone.** Two scripts that are spelt alike have
the same engine in every registry if and only if they are given hints for one language, as they are
if no node on the way up minds the spelling. -/
theorem spelling_shows_by_hint {ℓ : Type} {s : Surroundings} {resolver : Resolver}
    {script other : ResourceId} {e e' : String} (h : s.Respelt resolver script other e e') :
    ((∀ r : EngineRegistry ℓ, r.Reachable →
        r.snapshot.selectFor s script resolver = r.snapshot.selectFor s other resolver) ↔
      Text.EqualFold (s.languageHint script resolver e) (s.languageHint other resolver e')) ∧
    (s.AlikeAbove resolver script e e' → ∀ published : Snapshot,
      published.selectFor s script resolver = published.selectFor s other resolver) := by
  have hpath : Text.EqualFold (Path.extension? (s.resource script).path)
      (Path.extension? (s.resource other).path) := by
    rw [h.extension, h.extension']
    exact congrArg some h.lower
  simp only [h.selectFor, h.symm.selectFor]
  constructor
  · exact select_eq_iff hpath
  · intro halike published
    refine Snapshot.select_congr hpath ?_
    rw [← h.languageHint e']
    exact halike.languageHint

/-- Below the root two scripts that are spelt in two cases. -/
theorem respelt_rooted :
    Surroundings.rooted.Respelt (Surroundings.rooted.resolver ⟨""⟩) ⟨"/s.x"⟩ ⟨"/s.X"⟩ "x" "X" := by
  refine ⟨by cbv, by cbv, ⟨"/s.", by decide, by decide⟩, by decide, ?_, by cbv⟩
  funext extension
  simp [Surroundings.rooted]

/-- The root gives a hint for one spelling, and for another extension it gives none. -/
theorem spelling_shows_by_hint_below_root :
    let s := Surroundings.rooted
    let tree := s.resolver ⟨""⟩
    (s.Respelt tree ⟨"/s.x"⟩ ⟨"/s.X"⟩ "x" "X" ∧
      ¬ ∀ r : EngineRegistry Unit, r.Reachable →
        r.snapshot.selectFor s ⟨"/s.x"⟩ tree = r.snapshot.selectFor s ⟨"/s.X"⟩ tree) ∧
    (s.Respelt tree ⟨"/s.y"⟩ ⟨"/s.Y"⟩ "y" "Y" ∧ s.AlikeAbove tree ⟨"/s.y"⟩ "y" "Y" ∧
      ∀ r : EngineRegistry Unit, r.Reachable →
        r.snapshot.selectFor s ⟨"/s.y"⟩ tree = r.snapshot.selectFor s ⟨"/s.Y"⟩ tree) := by
  intro s tree
  have hx : s.Respelt tree ⟨"/s.x"⟩ ⟨"/s.X"⟩ "x" "X" := respelt_rooted
  have hy : s.Respelt tree ⟨"/s.y"⟩ ⟨"/s.Y"⟩ "y" "Y" := by
    refine ⟨by cbv, by cbv, ⟨"/s.", by decide, by decide⟩, by decide, ?_, by cbv⟩
    funext extension
    simp [s, Surroundings.rooted]
  have halike : s.AlikeAbove tree ⟨"/s.y"⟩ "y" "Y" := by
    intro n q _
    rfl
  refine ⟨⟨hx, ?_⟩, hy, halike, fun r _ => (spelling_shows_by_hint (ℓ := Unit) hy).2 halike _⟩
  rw [(spelling_shows_by_hint hx).1]
  have hlower : s.languageHint ⟨"/s.x"⟩ tree "x" = some "b" := by cbv
  have hupper : s.languageHint ⟨"/s.X"⟩ tree "X" = none := by cbv
  rw [hlower, hupper]
  decide

/-- Two engines serve one extension. -/
def contested : EngineRegistry Unit :=
  let first := (empty.apply
    (.dynamic Template.factory { names := some ["a"], extensions := some ["x"] })).2.1
  (first.apply (.dynamic Template.factory { names := some ["b"], extensions := some ["x"] })).2.1

/-- The root prefers the second of two engines, and a script with the extension in upper case is
left to the first. -/
theorem upper_case_misses_hint :
    let s := Surroundings.rooted
    let tree := s.resolver ⟨""⟩
    s.Respelt tree ⟨"/s.x"⟩ ⟨"/s.X"⟩ "x" "X" ∧ contested.Reachable ∧
      (contested.snapshot.selectFor s ⟨"/s.x"⟩ tree).map Descriptor.id = some 2 ∧
      (contested.snapshot.selectFor s ⟨"/s.X"⟩ tree).map Descriptor.id = some 1 := by
  intro s tree
  have hlower : s.languageHint ⟨"/s.x"⟩ tree "x" = some "b" := by cbv
  have hupper : s.languageHint ⟨"/s.X"⟩ tree "X" = none := by cbv
  refine ⟨respelt_rooted, .apply _ (.apply _ .empty), ?_, ?_⟩
  · rw [respelt_rooted.selectFor, hlower]
    cbv
  · rw [respelt_rooted.symm.selectFor, hupper]
    cbv

end EngineRegistry

end ScriptHost
