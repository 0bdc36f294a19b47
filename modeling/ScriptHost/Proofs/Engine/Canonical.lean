import Mathlib
import ScriptHost.Proofs.Engine.Atomic

/-! # What is published is determined by who is registered

`Snapshot.Canonical` collects what a snapshot of some live registrations has to be: their only
strict ordering by precedence, and look-ups that answer with the first claimant in it. Which
registrations are live is told by the requests alone (`EngineRegistry.InForce`), and the members are
just those (`InForce.perm`). The main theorem is that every registry publishes a canonical snapshot
of them, whatever it has been through. Two registries with the same registrations therefore publish
the same but for the generation. -/

namespace ScriptHost

/-- The same engine, registered from elsewhere. -/
def Descriptor.move (place : Descriptor → Origin) (d : Descriptor) : Descriptor :=
  { d with origin := place d }

namespace Snapshot

/-- A snapshot is what some live registrations determine, however they are listed and wherever they
came from. -/
structure Canonical (s : Snapshot) (live : List Descriptor) : Prop where
  sorted : s.engines.Pairwise Descriptor.Precedes
  /-- Each live registration stands in the list, once. -/
  complete : s.engines.Nodup ∧ ∀ d, d ∈ s.engines ↔ d ∈ live
  /-- Only the set of registrations counts. -/
  unique : ∀ (generation : Nat) (ds : List Descriptor), ds.Nodup → (∀ d, d ∈ ds ↔ d ∈ live) →
    build generation ds = { s with generation }
  /-- Registrations that come from elsewhere are ordered and found as before. -/
  originless : ∀ (generation : Nat) (place : Descriptor → Origin),
    (build generation (live.map (Descriptor.move place))).engines = s.engines.map (Descriptor.move place) ∧
      ∀ kind key, (build generation (live.map (Descriptor.move place))).owner? kind key =
        (s.owner? kind key).map (Descriptor.move place)
  byExtension : ∀ key,
    s.byExtension? key = s.engines.find? fun d => d.extensions.contains (Text.lower key)
  byName : ∀ key, s.byName? key = s.engines.find? fun d => d.names.contains key
  byMimeType : ∀ key,
    s.byMimeType? key = s.engines.find? fun d => d.mimeTypes.contains (Text.lower key)
  /-- A key goes without an answer exactly if nobody claims it. -/
  unclaimed : ∀ kind key,
    s.owner? kind key = none ↔ ∀ d ∈ s.engines, kind.lookupForm key ∉ d.claims kind
  bestCandidate : ∀ key, s.byExtension? key = (s.candidates key).head?
  /-- Without a hint a script goes by its extension alone. -/
  unhinted : ∀ path, s.select path none = (Path.extension? path).bind s.byExtension?

/-- The table of owners and the list of candidates agree on an extension. -/
theorem byExtension?_build (generation : Nat) (ds : List Descriptor) (key : String) :
    (build generation ds).byExtension? key = ((build generation ds).candidates key).head? := by
  unfold candidates
  rw [List.head?_filter]
  exact owner?_build generation ds .extension key

theorem select_none_build (generation : Nat) (ds : List Descriptor) (path : String) :
    (build generation ds).select path none =
      (Path.extension? path).bind (build generation ds).byExtension? := by
  unfold select
  cases h : Path.extension? path with
  | none => rfl
  | some ext =>
      show ((build generation ds).candidates ext).head? = (build generation ds).byExtension? ext
      exact (byExtension?_build generation ds ext).symm

/-- Origins take no part in precedence and claims. -/
theorem build_move (g generation : Nat) (ds : List Descriptor) (place : Descriptor → Origin) :
    (build generation (ds.map (Descriptor.move place))).engines =
        (build g ds).engines.map (Descriptor.move place) ∧
      ∀ kind key, (build generation (ds.map (Descriptor.move place))).owner? kind key =
        ((build g ds).owner? kind key).map (Descriptor.move place) := by
  have hranked : ranked (ds.map (Descriptor.move place)) = (ranked ds).map (Descriptor.move place) :=
    ranked_map (f := Descriptor.move place) (fun _ => rfl) ds
  refine ⟨hranked, fun kind key => ?_⟩
  have hclaims : (fun d : Descriptor => (d.claims kind).contains (kind.lookupForm key)) ∘
      Descriptor.move place = fun d => (d.claims kind).contains (kind.lookupForm key) := by
    funext d
    cases kind <;> rfl
  rw [owner?_build, owner?_build, hranked, List.find?_map, hclaims]

theorem canonical_build {ds : List Descriptor} (h : DistinctIds ds) (generation : Nat) :
    (build generation ds).Canonical ds where
  sorted := pairwise_ranked h
  complete := ⟨(h.perm (ranked_perm ds).symm).nodup, fun _ => (ranked_perm ds).mem_iff⟩
  unique := by
    intro g es hes hmem
    -- Lists without repetition that have the same members are rearrangements of each other.
    have hp : ds.Perm es := (List.perm_ext_iff_of_nodup h.nodup hes).mpr fun d => (hmem d).symm
    show build g es = { build generation ds with generation := g }
    rw [build_eq_of_perm h hp generation]
    rfl
  originless := fun g place => build_move generation g ds place
  byExtension := owner?_build generation ds .extension
  byName := owner?_build generation ds .name
  byMimeType := owner?_build generation ds .mimeType
  unclaimed := by
    intro kind key
    rw [owner?_build, List.find?_eq_none]
    show (∀ d ∈ (build generation ds).engines, _) ↔ _
    simp only [List.contains_iff_mem]
  bestCandidate := byExtension?_build generation ds
  unhinted := select_none_build generation ds

end Snapshot

namespace EngineRegistry

variable {ℓ ℓ' : Type}

/-! ## What is in force -/

/-- The registrations in force after the requests that have led to a registry. A request that cannot
be met changes nothing. Any other withdraws what it is about and adds what its factories declare. -/
inductive InForce : EngineRegistry ℓ → List Descriptor → Prop where
  | empty : InForce EngineRegistry.empty []
  | refused {r : EngineRegistry ℓ} {live : List Descriptor} {q : Registration} :
      InForce r live → q.Unfit → InForce (r.apply q).2.1 live
  | met {r : EngineRegistry ℓ} {live added : List Descriptor} {q : Registration} :
      InForce r live → ¬ q.Unfit → q.Adds r.nextId added →
      InForce (r.apply q).2.1 ((live.filter fun d => !q.withdraws d) ++ added)
  | subscribe {r : EngineRegistry ℓ} {live : List Descriptor} (listener : ℓ) :
      InForce r live → InForce (r.subscribe listener).2 live
  | unsubscribe {r : EngineRegistry ℓ} {live : List Descriptor} (id : Nat) :
      InForce r live → InForce (r.unsubscribe id).2 live

theorem Reachable.exists_inForce {r : EngineRegistry ℓ} (h : r.Reachable) :
    ∃ live, r.InForce live := by
  induction h with
  | empty => exact ⟨[], .empty⟩
  | @apply r q hr ih =>
      obtain ⟨live, hlive⟩ := ih
      by_cases hunfit : q.Unfit
      · exact ⟨live, .refused hlive hunfit⟩
      · obtain ⟨added, hadds, _⟩ := (hr.effect q).replaces hunfit
        exact ⟨_, .met hlive hunfit hadds⟩
  | subscribe listener _ ih =>
      obtain ⟨live, hlive⟩ := ih
      exact ⟨live, .subscribe listener hlive⟩
  | unsubscribe id _ ih =>
      obtain ⟨live, hlive⟩ := ih
      exact ⟨live, .unsubscribe id hlive⟩

theorem InForce.reachable {r : EngineRegistry ℓ} {live : List Descriptor} (h : r.InForce live) :
    r.Reachable := by
  induction h with
  | empty => exact .empty
  | refused _ _ ih => exact .apply _ ih
  | met _ _ _ ih => exact .apply _ ih
  | subscribe listener _ ih => exact .subscribe listener ih
  | unsubscribe id _ ih => exact .unsubscribe id ih

/-- The members of a registry are the registrations in force, whichever list they are kept in. -/
theorem InForce.perm {r : EngineRegistry ℓ} {live : List Descriptor} (h : r.InForce live) :
    live.Perm r.members.all := by
  induction h with
  | empty => exact .refl _
  | @refused r live q hlive hunfit ih =>
      rw [(hlive.reachable.effect q).members_of_unfit hunfit]
      exact ih
  | @met r live added q hlive hfit hadds ih =>
      obtain ⟨added', hadds', hreplaces⟩ := (hlive.reachable.effect q).replaces hfit
      rw [hadds.unique hadds']
      exact ((ih.filter _).append_right added').trans hreplaces.symm
  | subscribe _ _ ih => exact ih
  | unsubscribe _ _ ih => exact ih

/-! ## What is published -/

/-- **Every registry publishes the canonical snapshot of its members**, which are the registrations
in force, and any other registry with the same members publishes the same, but for the
generation. -/
theorem snapshot_canonical {r : EngineRegistry ℓ} (h : r.Reachable) :
    r.snapshot.Canonical r.members.all ∧
      ((∃ live, r.InForce live) ∧ ∀ live, r.InForce live → live.Perm r.members.all) ∧
      ∀ r' : EngineRegistry ℓ', r'.Reachable → (∀ d, d ∈ r'.members.all ↔ d ∈ r.members.all) →
        r'.snapshot = { r.snapshot with generation := r'.snapshot.generation } := by
  have hs := h.sound
  have hc : r.snapshot.Canonical r.members.all := by
    rw [hs.published]
    exact Snapshot.canonical_build hs.distinct _
  refine ⟨hc, ⟨h.exists_inForce, fun _ hlive => hlive.perm⟩, fun r' h' hmem => ?_⟩
  have hs' := h'.sound
  exact hs'.published.trans (hc.unique _ _ hs'.distinct.nodup hmem)

/-- Two registrations of one factory, of which the later one ranks higher. -/
def outranked : EngineRegistry ℓ :=
  ((empty.apply (.platform Template.factory 0)).2.1.apply
    (.dynamic Template.factory { rank := 5, names := some ["other"] })).2.1

theorem outranked_reachable : (outranked : EngineRegistry ℓ).Reachable :=
  .apply _ (.apply _ .empty)

theorem snapshot_canonical_outranked :
    (outranked : EngineRegistry Unit).snapshot.engines.map Descriptor.id = [2, 1] ∧
      (outranked : EngineRegistry Unit).snapshot.Canonical
        (outranked : EngineRegistry Unit).members.all ∧
      ((∃ live, (outranked : EngineRegistry Unit).InForce live) ∧
        ∀ live, (outranked : EngineRegistry Unit).InForce live →
          live.Perm (outranked : EngineRegistry Unit).members.all) ∧
      ∀ r' : EngineRegistry Unit, r'.Reachable →
        (∀ d, d ∈ r'.members.all ↔ d ∈ (outranked : EngineRegistry Unit).members.all) →
        r'.snapshot = { (outranked : EngineRegistry Unit).snapshot with
          generation := r'.snapshot.generation } :=
  ⟨by cbv, snapshot_canonical outranked_reachable⟩

end EngineRegistry

end ScriptHost
