import ScriptHost.Proofs.Engine.Atomic
import ScriptHost.Proofs.Repeats
import ScriptHost.Proofs.Text.Letters

/-! # The keys of registered engines

Every registered engine has been taken down from what a factory and a registration declare
(`Reachable.captured`). Its extensions and mime types are then in the form in which keys are looked
up, and none of them is listed twice; its names are just as they were declared. -/

namespace ScriptHost

namespace Association

theorem lower_form {declared form : String} (h : form? declared = some form) :
    Text.lower form = form := by
  unfold form? at h
  dsimp only at h
  split at h
  · cases h
  · rw [← Option.some.inj h, Text.lower_lower]

theorem lower_of_mem_normalize {declared : List String} {key : String}
    (h : key ∈ normalize declared) : Text.lower key = key := by
  unfold normalize at h
  rw [List.mem_eraseDups, List.mem_filterMap] at h
  obtain ⟨text, -, hform⟩ := h
  exact lower_form hform

theorem nodup_normalize (declared : List String) : (normalize declared).Nodup :=
  nodup_eraseDups _

end Association

/-- Whether an engine is what has been taken down for some registration. -/
def Descriptor.Captured (d : Descriptor) : Prop :=
  ∃ f origin id p, Descriptor.capture f origin id p = .ok d

namespace Descriptor.Captured

variable {d : Descriptor}

/-- Keys that are not names are normalized. -/
theorem exists_declared (h : d.Captured) {kind : Association} (hkind : kind ≠ .name) :
    ∃ declared, d.claims kind = Association.normalize declared := by
  obtain ⟨f, origin, id, p, hcapture⟩ := h
  unfold capture at hcapture
  dsimp only at hcapture
  split at hcapture
  · cases hcapture
  · split at hcapture
    · cases hcapture
    · cases hcapture
      cases kind with
      | extension => exact ⟨_, rfl⟩
      | name => exact absurd rfl hkind
      | mimeType => exact ⟨_, rfl⟩

theorem nodup_claims (h : d.Captured) {kind : Association} (hkind : kind ≠ .name) :
    (d.claims kind).Nodup := by
  obtain ⟨declared, hdeclared⟩ := h.exists_declared hkind
  rw [hdeclared]
  exact Association.nodup_normalize declared

/-- A key is claimed in the form in which it is looked up. -/
theorem lookupForm_eq (h : d.Captured) {kind : Association} {key : String}
    (hkey : key ∈ d.claims kind) : kind.lookupForm key = key := by
  cases kind with
  | name => rfl
  | extension =>
      obtain ⟨declared, hdeclared⟩ := h.exists_declared (by decide : Association.extension ≠ .name)
      exact Association.lower_of_mem_normalize (hdeclared ▸ hkey)
  | mimeType =>
      obtain ⟨declared, hdeclared⟩ := h.exists_declared (by decide : Association.mimeType ≠ .name)
      exact Association.lower_of_mem_normalize (hdeclared ▸ hkey)

end Descriptor.Captured

theorem Registration.Adds.all_captured {q : Registration} {next : Nat} {added : List Descriptor}
    (h : q.Adds next added) : ∀ d ∈ added, d.Captured := by
  intro d hd
  obtain ⟨e, -, hcapture⟩ := h.exists_engine hd
  exact ⟨e.1, q.origin, d.id, e.2, hcapture⟩

namespace EngineRegistry

variable {ℓ : Type}

/-- **Every registered engine has been taken down for its registration.** -/
theorem Reachable.captured {r : EngineRegistry ℓ} (h : r.Reachable) :
    ∀ d ∈ r.members.all, d.Captured := by
  intro d hd
  obtain ⟨q, next, added, hadds, hmem⟩ := h.exists_adds hd
  exact hadds.all_captured d hmem

end EngineRegistry

end ScriptHost
