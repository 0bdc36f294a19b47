import Mathlib
import ScriptHost.Proofs.Engine.Atomic
import ScriptHost.Proofs.Engine.Choice
import ScriptHost.Proofs.Text.Trim

/-! # The names of packages

The name of a package is trimmed when it is registered, and so is every name that a package goes by
(`Reachable.name_trimmed`). When a package is withdrawn the name is taken as it is. So a package is
withdrawn by its trimmed name, and then all is as if it had never been registered but for what it
replaced; a name with white space around it withdraws nothing at all. -/

namespace ScriptHost

/-- A registration belongs to a package. -/
def Descriptor.IsOf (d : Descriptor) (package : String) : Prop :=
  d.origin = .package package

instance (d : Descriptor) (package : String) : Decidable (d.IsOf package) :=
  inferInstanceAs (Decidable (d.origin = .package package))

namespace Members

/-- The registrations of a package. -/
def ofPackage (m : Members) (package : String) : List Descriptor :=
  m.all.filter fun d => decide (d.IsOf package)

/-- The registrations that do not belong to a package. -/
def besidesPackage (m : Members) (package : String) : List Descriptor :=
  m.all.filter fun d => !decide (d.IsOf package)

theorem ofPackage_eq_nil_iff {m : Members} {package : String} :
    m.ofPackage package = [] ↔ ∀ d ∈ m.all, ¬ d.IsOf package := by
  unfold ofPackage
  simp [List.filter_eq_nil_iff]

theorem mem_besidesPackage {m : Members} {package : String} {d : Descriptor} :
    d ∈ m.besidesPackage package ↔ d ∈ m.all ∧ ¬ d.IsOf package := by
  unfold besidesPackage
  simp [List.mem_filter]

/-- Registrations of a package that are put beside others are the package. -/
theorem parts_perm {m : Members} {package : String} {others own : List Descriptor}
    (hall : m.all.Perm (others ++ own)) (hothers : ∀ d ∈ others, ¬ d.IsOf package)
    (hown : ∀ d ∈ own, d.IsOf package) :
    (m.ofPackage package).Perm own ∧ (m.besidesPackage package).Perm others := by
  constructor
  · have hnone : others.filter (fun d => decide (d.IsOf package)) = [] :=
      List.filter_eq_nil_iff.mpr fun d hd => by simp [hothers d hd]
    have hsome : own.filter (fun d => decide (d.IsOf package)) = own :=
      List.filter_eq_self.mpr fun d hd => decide_eq_true (hown d hd)
    refine (hall.filter _).trans ?_
    rw [List.filter_append, hnone, hsome, List.nil_append]
  · have hnone : own.filter (fun d => !decide (d.IsOf package)) = [] :=
      List.filter_eq_nil_iff.mpr fun d hd => by simp [hown d hd]
    have hsome : others.filter (fun d => !decide (d.IsOf package)) = others :=
      List.filter_eq_self.mpr fun d hd => by simp [hothers d hd]
    refine (hall.filter _).trans ?_
    rw [List.filter_append, hnone, hsome, List.append_nil]

end Members

namespace Registration

/-! ## Names -/

/-- The engines that a request adds come from where it says. -/
theorem Adds.origin {q : Registration} {next : Nat} {added : List Descriptor}
    (h : q.Adds next added) : ∀ d ∈ added, d.origin = q.origin := by
  intro d hd
  obtain ⟨e, -, hcapture⟩ := h.exists_engine hd
  rcases Descriptor.capture_cases e.1 q.origin d.id e.2 with ⟨-, _, hrefused⟩ |
    ⟨-, _, hok, -, horigin⟩
  · rw [hcapture] at hrefused
    cases hrefused
  · rw [hcapture] at hok
    cases hok
    exact horigin

theorem trim_of_origin {q : Registration} {name : String} (h : q.origin = .package name) :
    Text.trim name = name := by
  cases q with
  | package given engines =>
      cases h
      exact Text.trim_trim given
  | _ => cases h

end Registration

namespace EngineRegistry

variable {ℓ : Type}

/-- **No package goes by a name with white space around it.** -/
theorem Reachable.name_trimmed {r : EngineRegistry ℓ} (h : r.Reachable) {d : Descriptor}
    (hd : d ∈ r.members.all) {name : String} (hof : d.IsOf name) : Text.trim name = name := by
  obtain ⟨q, next, added, hadds, hmem⟩ := h.exists_adds hd
  exact Registration.trim_of_origin ((hadds.origin d hmem).symm.trans hof)

/-! ## Registering and withdrawing -/

/-- A package that is accepted takes the place of what it had; nothing else changes. -/
theorem Reachable.registered_package {r : EngineRegistry ℓ} (h : r.Reachable) {name : String}
    {engines : List (Factory × Int)} {ids : List Nat}
    (hok : (r.apply (.package name engines)).1 = .registered ids) :
    let package := Text.trim name
    let given := (r.apply (.package name engines)).2.1
    ((given.members.ofPackage package).map Descriptor.id).Perm ids ∧
      (given.members.besidesPackage package).Perm (r.members.besidesPackage package) ∧
      ids.length = engines.length := by
  have heffect := h.effect (.package name engines)
  generalize r.apply (.package name engines) = out at heffect hok ⊢
  dsimp only
  cases heffect with
  | refused _ => cases hok
  | idle _ hnone hall =>
      cases hok
      have hnil : r.members.ofPackage (Text.trim name) = [] :=
        Members.ofPackage_eq_nil_iff.mpr fun d hd => of_decide_eq_false (hall d hd)
      have hengines : engines = [] := List.map_eq_nil_iff.mp hnone
      rw [hnil, hengines]
      exact ⟨.refl _, .refl _, rfl⟩
  | @met added members _ _ _ hadds hreplaces =>
      cases hok
      have hof : ∀ d ∈ added, d.IsOf (Text.trim name) := hadds.origin
      have hlength : (added.map Descriptor.id).length = engines.length := by
        simpa [Registration.engines] using congrArg List.length hadds.numbers
      have hothers : ∀ d ∈ r.members.besidesPackage (Text.trim name), ¬ d.IsOf (Text.trim name) :=
        fun d hd => (Members.mem_besidesPackage.mp hd).2
      obtain ⟨hown, hbeside⟩ := Members.parts_perm hreplaces hothers hof
      exact ⟨hown.map _, hbeside, hlength⟩

/-- What a withdrawal of a package leaves, and what it answers. -/
theorem dropPackage_spec {r : EngineRegistry ℓ} (h : r.members.Filed) (package : String) :
    (r.dropPackage package).2.1.members.all = r.members.besidesPackage package ∧
      (r.dropPackage package).1 = !(r.members.ofPackage package).isEmpty ∧
      (r.members.ofPackage package = [] → r.dropPackage package = (false, r, none)) := by
  have hdrop := withdrawal_dropPackage h package
  generalize r.dropPackage package = out at hdrop ⊢
  cases hdrop with
  | nothing hnone =>
      have hnil : r.members.ofPackage package = [] :=
        Members.ofPackage_eq_nil_iff.mpr fun d hd => of_decide_eq_false (hnone d hd)
      refine ⟨?_, by rw [hnil]; rfl, fun _ => rfl⟩
      exact (List.filter_eq_self.mpr fun d hd => Bool.not_eq_true' _ ▸ hnone d hd).symm
  | some hsome hmembers =>
      obtain ⟨d, hd, hof⟩ := hsome
      have hne : r.members.ofPackage package ≠ [] := fun hnil =>
        Members.ofPackage_eq_nil_iff.mp hnil d hd (of_decide_eq_true hof)
      refine ⟨hmembers, ?_, fun hnil => absurd hnil hne⟩
      rw [List.isEmpty_eq_false_iff.mpr hne, Bool.not_false]

/-! ## What is published -/

theorem Reachable.engines_eq {r : EngineRegistry ℓ} (h : r.Reachable) :
    r.snapshot.engines = Snapshot.ranked r.members.all := by
  rw [h.sound.published]
  rfl

theorem Reachable.mem_of_finds {r : EngineRegistry ℓ} (h : r.Reachable) {d : Descriptor}
    (hd : r.snapshot.Finds d) : d ∈ r.members.all := by
  rw [h.sound.published] at hd
  exact hd.mem

/-- **A withdrawal of a package** takes just its registrations out of what is published, and says
whether there were any. -/
theorem Reachable.withdrawn_package {r : EngineRegistry ℓ} (h : r.Reachable) (package : String) :
    let out := r.apply (.removePackage package)
    out.1 = .withdrawn (!(r.members.ofPackage package).isEmpty) ∧
      out.2.1.members.all = r.members.besidesPackage package ∧
      out.2.1.snapshot.engines =
        (r.snapshot.engines.filter fun d => !decide (d.IsOf package)) ∧
      (∀ d, out.2.1.snapshot.Finds d → ¬ d.IsOf package) ∧
      (r.members.ofPackage package = [] → out = (.withdrawn false, r, none)) := by
  have hout := Reachable.apply (.removePackage package) h
  obtain ⟨hleft, hany, hidle⟩ := dropPackage_spec h.filed package
  have happly : r.apply (.removePackage package) =
      (.withdrawn (r.dropPackage package).1, (r.dropPackage package).2) := rfl
  rw [happly] at hout ⊢
  dsimp only at hout ⊢
  refine ⟨by rw [hany], hleft, ?_, ?_, ?_⟩
  · rw [hout.engines_eq, h.engines_eq, ← Snapshot.ranked_filter h.sound.distinct, hleft]
    rfl
  · intro d hd
    have hmem : d ∈ r.members.besidesPackage package := hleft ▸ hout.mem_of_finds hd
    exact (Members.mem_besidesPackage.mp hmem).2
  · intro hnil
    rw [hidle hnil]

/-- **A package that has been registered goes by its trimmed name.** By that it is withdrawn, if any
engines were given for it: just the registrations of the package go, the others stay as they were
before and are published in their order, and nothing of the package can be found any more. A name
that is not trimmed withdraws nothing. -/
theorem package_goes_by_trimmed_name {r : EngineRegistry ℓ} (h : r.Reachable) {name : String}
    {engines : List (Factory × Int)} {ids : List Nat}
    (hok : (r.apply (.package name engines)).1 = .registered ids) :
    let package := Text.trim name
    let given := (r.apply (.package name engines)).2.1
    let out := given.apply (.removePackage package)
    ((given.members.ofPackage package).map Descriptor.id).Perm ids ∧
      ids.length = engines.length ∧
      out.1 = .withdrawn (!engines.isEmpty) ∧
      out.2.1.members.all = given.members.besidesPackage package ∧
      out.2.1.members.all.Perm (r.members.besidesPackage package) ∧
      out.2.1.snapshot.engines =
        (given.snapshot.engines.filter fun d => !decide (d.IsOf package)) ∧
      (∀ d, out.2.1.snapshot.Finds d → ¬ d.IsOf package) ∧
      (package ≠ name →
        given.apply (.removePackage name) = (.withdrawn false, given, none)) := by
  have hgiven := Reachable.apply (.package name engines) h
  obtain ⟨hown, hothers, hlength⟩ := h.registered_package hok
  generalize (r.apply (.package name engines)).2.1 = given at hgiven hown hothers ⊢
  obtain ⟨hreply, hmembers, hengines, hgone, -⟩ := hgiven.withdrawn_package (Text.trim name)
  refine ⟨hown, hlength, ?_, hmembers, hmembers ▸ hothers, hengines, hgone, ?_⟩
  · have hempty : (given.members.ofPackage (Text.trim name)).isEmpty = engines.isEmpty := by
      rw [Bool.eq_iff_iff, List.isEmpty_iff, List.isEmpty_iff, ← List.length_eq_zero_iff,
        ← List.length_eq_zero_iff, ← hlength, ← hown.length_eq, List.length_map]
    exact hempty ▸ hreply
  · intro hname
    obtain ⟨-, -, -, -, hidle⟩ := hgiven.withdrawn_package name
    refine hidle (Members.ofPackage_eq_nil_iff.mpr fun d hd hof => ?_)
    exact hname (hgiven.name_trimmed hd hof)

/-- Beside another package, which stays. -/
theorem package_goes_by_trimmed_name_padded :
    let given := (packaged.apply (.package " q " [(Template.factory, 7)])).2.1
    (packaged.apply (.package " q " [(Template.factory, 7)])).1 = .registered [3] ∧
      Text.trim " q " = "q" ∧
      (given.apply (.removePackage "q")).1 = .withdrawn true ∧
      (given.apply (.removePackage "q")).2.1.snapshot.engines.map Descriptor.id = [2, 1] ∧
      (∀ d, (given.apply (.removePackage "q")).2.1.snapshot.Finds d → ¬ d.IsOf "q") ∧
      given.apply (.removePackage " q ") = (.withdrawn false, given, none) := by
  have hok : (packaged.apply (.package " q " [(Template.factory, 7)])).1 = .registered [3] := by cbv
  have htrim : Text.trim " q " = "q" := by cbv
  have hengines : ((packaged.apply (.package " q " [(Template.factory, 7)])).2.1.apply
      (.removePackage "q")).2.1.snapshot.engines.map Descriptor.id = [2, 1] := by cbv
  have hgoes := package_goes_by_trimmed_name packaged_reachable hok
  rw [htrim] at hgoes
  obtain ⟨-, -, hreply, -, -, -, hgone, hidle⟩ := hgoes
  exact ⟨hok, htrim, hreply, hengines, hgone, hidle (by decide)⟩

/-- The engine of a package that is withdrawn under the name it was registered by is still served,
if there are blanks around the name. -/
theorem padded_name_withdraws_nothing :
    let start : EngineRegistry String := empty
    let given := (start.apply (.package " q " [(Template.factory, 0)])).2.1
    (start.apply (.package " q " [(Template.factory, 0)])).1 = .registered [1] ∧
      (given.apply (.removePackage " q ")).1 = .withdrawn false ∧
      ((given.apply (.removePackage " q ")).2.1.snapshot.byName? "template").map Descriptor.id =
        some 1 := by
  refine ⟨by cbv, by cbv, by cbv⟩

end EngineRegistry

end ScriptHost
