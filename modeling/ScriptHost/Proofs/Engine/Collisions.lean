import Mathlib
import ScriptHost.Proofs.Engine.Keys

/-! # Collisions

While the table of owners is filled engine by engine, every claim to a key that another engine
serves already leaves a record. What one engine adds to the records of a key depends on the owner of
the key and on how often the engine lists it (`Claims.recorded_enter`), so in the end there is, for
each claimant but the first and in the order of precedence, a record for each time it lists the key
(`Snapshot.recorded_build`). Extensions and mime types are listed once, names as often as they are
declared. -/

namespace ScriptHost

/-- The record that an engine claims a key which another one serves. -/
def Descriptor.shadows (owner : Descriptor) (kind : Association) (key : String) (d : Descriptor) :
    Collision :=
  ⟨kind, key, owner.engineName, d.engineName⟩

namespace Claims

variable {kind : Association} {key : String}

/-- What has been recorded of a key. -/
def recorded (c : Claims) (kind : Association) (key : String) : List Collision :=
  c.collisions.filter fun r => r.kind = kind ∧ r.key = key

/-- What an engine that lists a key so many times leaves in the records of the key. -/
def met (owner? : Option Descriptor) (kind : Association) (key : String) (d : Descriptor)
    (times : Nat) : List Collision :=
  match owner? with
  | none => []
  | some owner => if owner.id = d.id then [] else List.replicate times (owner.shadows kind key d)

theorem met_zero (owner? : Option Descriptor) (d : Descriptor) : met owner? kind key d 0 = [] := by
  unfold met
  split
  · rfl
  · split <;> rfl

theorem met_succ (owner? : Option Descriptor) (d : Descriptor) (times : Nat) :
    met owner? kind key d (times + 1) =
      met owner? kind key d 1 ++ met owner? kind key d times := by
  unfold met
  split
  · rfl
  · split
    · rfl
    · exact List.replicate_succ

/-- An engine does not meet itself. -/
theorem met_or_self (owner? : Option Descriptor) (d : Descriptor) (times : Nat) :
    met (owner?.or (some d)) kind key d times = met owner? kind key d times := by
  cases owner? with
  | none => simp [met]
  | some owner => rfl

theorem recorded_claim (c : Claims) (d : Descriptor) (kind' : Association) (key' : String) :
    (c.claim d kind' key').recorded kind key = c.recorded kind key ++
      if kind' = kind ∧ key' = key then met (c.owners.get? (kind, key)) kind key d 1 else [] := by
  unfold claim
  by_cases hk : kind' = kind ∧ key' = key
  · rw [if_pos hk]
    obtain ⟨rfl, rfl⟩ := hk
    cases c.owners.get? (kind', key') with
    | none => exact (List.append_nil _).symm
    | some owner =>
        unfold met
        dsimp only
        split
        · exact (List.append_nil _).symm
        · simp [recorded, Descriptor.shadows]
  · rw [if_neg hk, List.append_nil]
    split
    · rfl
    · split
      · rfl
      · simp [recorded, hk]

/-- Listing a key again is recorded again, unless the key has become one's own. -/
theorem recorded_foldl_claim (keys : List String) (c : Claims) (d : Descriptor)
    (kind' : Association) :
    (keys.foldl (fun c key => c.claim d kind' key) c).recorded kind key = c.recorded kind key ++
      if kind' = kind then met (c.owners.get? (kind, key)) kind key d (keys.count key) else [] := by
  induction keys generalizing c with
  | nil => simp [met_zero]
  | cons key' keys ih =>
      rw [List.foldl_cons, ih, recorded_claim, get?_claim, List.append_assoc]
      congr 1
      by_cases hkind : kind' = kind
      · by_cases hkey : key' = key
        · -- If the key was free the engine owns it from here on, and `met_or_self` says that this
          -- is no matter.
          subst hkind hkey
          rw [if_pos rfl, if_pos ⟨rfl, rfl⟩, if_pos rfl, if_pos rfl, met_or_self,
            List.count_cons_self, met_succ _ d (keys.count key')]
        · rw [if_pos hkind, if_neg fun h => hkey h.2, if_neg fun h => hkey (congrArg Prod.snd h).symm,
            Option.or_none, if_pos hkind, List.count_cons_of_ne hkey, List.nil_append]
      · rw [if_neg hkind, if_neg fun h => hkind h.1, if_neg hkind, List.append_nil]

/-- **What an engine adds to the records of a key.** -/
theorem recorded_enter (c : Claims) (d : Descriptor) :
    (c.enter d).recorded kind key = c.recorded kind key ++
      met (c.owners.get? (kind, key)) kind key d ((d.claims kind).count key) := by
  unfold enter claimAll
  rw [recorded_foldl_claim, recorded_foldl_claim, recorded_foldl_claim, get?_foldl_claim,
    get?_foldl_claim, get?_foldl_claim]
  cases kind <;> simp

/-- Once a key has an owner, all that others claim is recorded. -/
theorem recorded_foldl_of_owned {ds : List Descriptor} {c : Claims} {owner : Descriptor}
    (howner : c.owners.get? (kind, key) = some owner) (hother : ∀ d ∈ ds, owner.id ≠ d.id) :
    (ds.foldl enter c).recorded kind key = c.recorded kind key ++
      (repeated (fun d => (d.claims kind).count key) ds).map (owner.shadows kind key) := by
  induction ds generalizing c with
  | nil => simp [repeated]
  | cons d ds ih =>
      have hkept : (c.enter d).owners.get? (kind, key) = some owner := by
        rw [get?_enter, howner]
        rfl
      have hmet : met (some owner) kind key d ((d.claims kind).count key) =
          List.replicate ((d.claims kind).count key) (owner.shadows kind key d) :=
        if_neg (hother d List.mem_cons_self)
      rw [List.foldl_cons, ih hkept fun e he => hother e (List.mem_cons_of_mem d he),
        recorded_enter, howner, hmet, repeated_cons, List.map_append, List.map_replicate,
        List.append_assoc]

/-- The records that some claimants of a key leave, of which the first becomes its owner. -/
def recordsOf (kind : Association) (key : String) : List Descriptor → List Collision
  | [] => []
  | owner :: others =>
    (repeated (fun d => (d.claims kind).count key) others).map (owner.shadows kind key)

/-- The invariant of the loop that fills the table, for a key that nobody has claimed yet. -/
theorem recorded_foldl_of_free {ds : List Descriptor} (hids : DistinctIds ds) {c : Claims}
    (hfree : c.owners.get? (kind, key) = none) :
    (ds.foldl enter c).recorded kind key = c.recorded kind key ++
      recordsOf kind key (ds.filter fun d => (d.claims kind).contains key) := by
  induction ds generalizing c with
  | nil => simp [recordsOf]
  | cons d ds ih =>
      have hsame : (c.enter d).recorded kind key = c.recorded kind key := by
        rw [recorded_enter, hfree]
        exact List.append_nil _
      have howner := c.get?_enter d (kind, key)
      obtain ⟨hother, hrest⟩ := List.nodup_cons.mp hids
      rw [hfree, Option.none_or] at howner
      rw [List.foldl_cons]
      cases hd : (d.claims kind).contains key with
      | true =>
          -- From the owner on the records are those of an owned key, and whoever does not claim it
          -- leaves none.
          rw [if_pos (List.contains_iff_mem.mp hd)] at howner
          have hnone : ∀ e ∈ ds, (e.claims kind).contains key = false →
              (e.claims kind).count key = 0 := fun e _ he =>
            List.count_eq_zero.mpr fun hmem => by simp [hmem] at he
          rw [recorded_foldl_of_owned howner fun e he hid => hother (hid ▸ List.mem_map_of_mem he),
            hsame, List.filter_cons, if_pos hd]
          exact congrArg (_ ++ List.map _ ·) (repeated_filter hnone).symm
      | false =>
          rw [if_neg fun hmem => by simp [hmem] at hd] at howner
          rw [ih hrest howner, hsame, List.filter_cons, if_neg (Bool.not_eq_true _ ▸ hd)]

end Claims

namespace Snapshot

variable {kind : Association} {key : String}

/-- The engines that claim a key, by precedence. -/
def claimants (s : Snapshot) (kind : Association) (key : String) : List Descriptor :=
  s.engines.filter fun d => (d.claims kind).contains key

/-- The collisions that are recorded for a key. -/
def collisionsOf (s : Snapshot) (kind : Association) (key : String) : List Collision :=
  s.collisions.filter fun r => r.kind = kind ∧ r.key = key

theorem mem_claimants {s : Snapshot} {d : Descriptor} :
    d ∈ s.claimants kind key ↔ d ∈ s.engines ∧ key ∈ d.claims kind := by
  simp [claimants]

theorem collisionsOf_build {ds : List Descriptor} (hids : DistinctIds ds) (generation : Nat)
    (kind : Association) (key : String) : (build generation ds).collisionsOf kind key =
      Claims.recordsOf kind key ((build generation ds).claimants kind key) :=
  (Claims.recorded_foldl_of_free (hids.perm (ranked_perm ds).symm) (OrderedMap.get?_empty _)).trans
    (List.nil_append _)

end Snapshot

namespace EngineRegistry

variable {ℓ : Type}

/-- **Which collisions are recorded for a key**, in every registry that comes about. Where engines
claim the key the first of them serves it, and for each of the others, in the order of precedence,
there is a record for each time that it lists the key. So there is one for each of them if and only
if none lists the key more than once, as it is for extensions and mime types. Where nobody claims
the key there is no record. -/
theorem collisions_by_claimant {r : EngineRegistry ℓ} (h : r.Reachable) (kind : Association)
    (key : String) :
    let claimants := r.snapshot.claimants kind key
    let recorded := r.snapshot.collisionsOf kind key
    claimants.Pairwise Descriptor.Precedes ∧
      (claimants = [] → recorded = []) ∧
      ∀ owner others, claimants = owner :: others →
        r.snapshot.owner? kind key = some owner ∧
        recorded = (repeated (fun d => (d.claims kind).count key) others).map
          (owner.shadows kind key) ∧
        (recorded = others.map (owner.shadows kind key) ↔
          ∀ d ∈ others, (d.claims kind).count key = 1) ∧
        (recorded.length = others.length ↔ ∀ d ∈ others, (d.claims kind).count key = 1) ∧
        (kind ≠ .name → ∀ d ∈ others, (d.claims kind).count key = 1) := by
  intro claimants recorded
  have hengines : r.snapshot.engines = Snapshot.ranked r.members.all := by
    rw [h.sound.published]
    rfl
  have hrecorded : recorded = Claims.recordsOf kind key claimants := by
    have hbuild := Snapshot.collisionsOf_build h.sound.distinct r.snapshot.generation kind key
    rwa [← h.sound.published] at hbuild
  have hcaptured : ∀ d ∈ claimants, d.Captured ∧ key ∈ d.claims kind := by
    intro d hd
    obtain ⟨hmem, hkey⟩ := Snapshot.mem_claimants.mp hd
    rw [hengines] at hmem
    exact ⟨h.captured d ((Snapshot.ranked_perm _).mem_iff.mp hmem), hkey⟩
  refine ⟨?_, ?_, ?_⟩
  · have hranked := Snapshot.pairwise_ranked h.sound.distinct
    rw [← hengines] at hranked
    exact hranked.filter _
  · intro hnone
    rw [hrecorded, hnone]
    rfl
  · intro owner others hclaimants
    have hothers : ∀ d ∈ others, 0 < (d.claims kind).count key := fun d hd =>
      List.count_pos_iff.mpr (hcaptured d (hclaimants ▸ List.mem_cons_of_mem owner hd)).2
    have heq : recorded = (repeated (fun d => (d.claims kind).count key) others).map
        (owner.shadows kind key) := by
      rw [hrecorded, hclaimants]
      rfl
    refine ⟨?_, heq, ?_, ?_, fun hkind d hd => ?_⟩
    · have howner := Snapshot.owner?_build r.snapshot.generation r.members.all kind key
      have hfirst := hcaptured owner (hclaimants ▸ List.mem_cons_self)
      rw [← h.sound.published, hfirst.1.lookupForm_eq hfirst.2, ← hengines,
        ← List.head?_filter] at howner
      exact howner.trans (congrArg List.head? hclaimants)
    · rw [heq]
      exact map_repeated_eq_iff _ hothers
    · rw [heq, List.length_map]
      exact length_repeated_eq_iff hothers
    · have hlisted := hcaptured d (hclaimants ▸ List.mem_cons_of_mem owner hd)
      exact List.count_eq_one_of_mem (hlisted.1.nodup_claims hkind) hlisted.2

end EngineRegistry

/-! ## A name that is listed twice -/

namespace Sample

/-- A factory of engines that do nothing. -/
def idle (name : String) (names extensions : List String) : Factory where
  id := .given name
  engineName := name
  names
  extensions
  languageName := name
  engine := { evaluate := fun _ ctx => .done (.ok ⟨.null, ctx⟩) }

/-- Three engines for one name and one extension, of which the last has the highest rank. -/
def contested : EngineRegistry Unit :=
  (((EngineRegistry.empty.apply (.platform (idle "a" ["n"] ["x"]) 0)).2.1.apply
    (.dynamic (idle "b" ["n", "m", "n"] ["x", ".x"]) {})).2.1.apply
    (.platform (idle "c" ["n"] ["x"]) 5)).2.1

theorem contested_reachable : contested.Reachable :=
  .apply _ (.apply _ (.apply _ .empty))

end Sample

namespace EngineRegistry

open Sample

/-- The extension is recorded for each of the two that go without it, though one of them declares it
twice; the name is recorded twice for the one that declares it twice. -/
theorem collisions_by_claimant_contested :
    contested.Reachable ∧
      (contested.snapshot.claimants .extension "x").map Descriptor.engineName = ["c", "a", "b"] ∧
      (contested.snapshot.byExtension? "x").map Descriptor.engineName = some "c" ∧
      contested.snapshot.collisionsOf .extension "x" =
        [⟨.extension, "x", "c", "a"⟩, ⟨.extension, "x", "c", "b"⟩] ∧
      contested.snapshot.collisionsOf .name "n" =
        [⟨.name, "n", "c", "a"⟩, ⟨.name, "n", "c", "b"⟩, ⟨.name, "n", "c", "b"⟩] := by
  obtain ⟨-, -, hclaimed⟩ := collisions_by_claimant contested_reachable .extension "x"
  have hnames : (contested.snapshot.claimants .extension "x").map Descriptor.engineName =
      ["c", "a", "b"] := by
    cbv
  refine ⟨contested_reachable, hnames, by cbv, ?_, by cbv⟩
  obtain ⟨owner, others, hclaimants, howner, hothers⟩ := List.map_eq_cons_iff.mp hnames
  obtain ⟨-, -, heach, -, honce⟩ := hclaimed owner others hclaimants
  have hshadows : others.map (owner.shadows .extension "x") =
      (others.map Descriptor.engineName).map (⟨.extension, "x", owner.engineName, ·⟩) := by
    rw [List.map_map]
    rfl
  rw [heach.mpr (honce (by decide)), hshadows, howner, hothers]
  rfl

/-- Two engines claim a name, and there are two records of it. -/
theorem listed_twice_recorded_twice :
    let registry : EngineRegistry Unit :=
      ((empty.apply (.platform (idle "a" ["n"] []) 0)).2.1.apply
        (.platform (idle "b" ["n", "n"] []) 0)).2.1
    (registry.snapshot.claimants .name "n").map Descriptor.engineName = ["a", "b"] ∧
      registry.snapshot.collisionsOf .name "n" =
        [⟨.name, "n", "a", "b"⟩, ⟨.name, "n", "a", "b"⟩] := by
  cbv

end EngineRegistry

end ScriptHost
