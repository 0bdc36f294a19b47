import Mathlib.Data.List.Nodup
import ScriptHost.Engine.Selection

/-! # Precedence among published engines

What `Snapshot.build` makes of a list of engines, whatever the order in which they are listed: the
engines by precedence, and for every key its first claimant. Precedence is strict as soon as no two
engines have the same number, which is why the sorted list is the only one and why the table of
owners, filled claim by claim, agrees with a search through the list. -/

namespace ScriptHost

/-! ## The order of priorities -/

namespace Priority

theorem le_iff {a b : Priority} :
    a.le b = true ↔ b.rank < a.rank ∨ (a.rank = b.rank ∧ a.id ≤ b.id) := by
  simp [Priority.le]

theorem le_total (a b : Priority) : (a.le b || b.le a) = true := by
  rw [Bool.or_eq_true, le_iff, le_iff]
  omega

theorem le_trans {a b c : Priority} (hab : a.le b = true) (hbc : b.le c = true) :
    a.le c = true := by
  rw [le_iff] at *
  omega

/-- Two priorities that stand level with each other are the same. -/
theorem le_antisymm {a b : Priority} (hab : a.le b = true) (hba : b.le a = true) : a = b := by
  rw [le_iff] at hab hba
  obtain ⟨ra, ia⟩ := a
  obtain ⟨rb, ib⟩ := b
  simp only [Priority.mk.injEq]
  dsimp only at hab hba
  omega

end Priority

/-- `a` comes before `b`: by a higher rank, or by an earlier number at the same rank. -/
def Descriptor.Precedes (a b : Descriptor) : Prop :=
  b.priority.rank < a.priority.rank ∨ (a.priority.rank = b.priority.rank ∧ a.id < b.id)

theorem Descriptor.precedes_of_le {a b : Descriptor} (h : a.priority.le b.priority = true)
    (hne : a.id ≠ b.id) : a.Precedes b := by
  rw [Priority.le_iff] at h
  unfold Descriptor.Precedes Descriptor.id at *
  omega

/-- No two engines of the list have the same number. -/
def DistinctIds (ds : List Descriptor) : Prop := (ds.map Descriptor.id).Nodup

theorem DistinctIds.nodup {ds : List Descriptor} (h : DistinctIds ds) : ds.Nodup :=
  List.Nodup.of_map _ h

theorem DistinctIds.eq_of_id {ds : List Descriptor} (h : DistinctIds ds) {a b : Descriptor}
    (ha : a ∈ ds) (hb : b ∈ ds) (hid : a.id = b.id) : a = b :=
  List.inj_on_of_nodup_map h ha hb hid

theorem DistinctIds.perm {ds es : List Descriptor} (h : DistinctIds ds) (hp : ds.Perm es) :
    DistinctIds es :=
  (hp.map _).nodup_iff.mp h

namespace Snapshot

/-! ## The list of engines -/

theorem ranked_perm (ds : List Descriptor) : (ranked ds).Perm ds :=
  List.mergeSort_perm _ _

theorem pairwise_ranked_le (ds : List Descriptor) :
    (ranked ds).Pairwise fun a b => a.priority.le b.priority = true := by
  refine List.pairwise_mergeSort ?_ ?_ ds
  · intro a b c hab hbc
    exact Priority.le_trans hab hbc
  · intro a b
    exact Priority.le_total a.priority b.priority

theorem pairwise_ranked {ds : List Descriptor} (h : DistinctIds ds) :
    (ranked ds).Pairwise Descriptor.Precedes := by
  have hids : (ranked ds).Pairwise fun a b => a.id ≠ b.id :=
    List.pairwise_map.mp (h.perm (ranked_perm ds).symm)
  exact (pairwise_ranked_le ds).imp₂ (fun _ _ hle hne => Descriptor.precedes_of_le hle hne) hids

/-- **The order of the engines does not depend on how they are listed.** -/
theorem ranked_eq_of_perm {ds es : List Descriptor} (h : DistinctIds ds) (hp : ds.Perm es) :
    ranked ds = ranked es := by
  -- A priority holds the number of its engine, so equal priorities are those of one engine.
  have hsame : ∀ a b, a ∈ ranked ds → b ∈ ranked es → a.priority.le b.priority = true →
      b.priority.le a.priority = true → a = b := by
    intro a b ha hb hab hba
    have hprio : a.priority = b.priority := Priority.le_antisymm hab hba
    have hb' : b ∈ ds := hp.mem_iff.mpr ((ranked_perm es).mem_iff.mp hb)
    exact h.eq_of_id ((ranked_perm ds).mem_iff.mp ha) hb' (congrArg Priority.id hprio)
  exact List.Perm.eq_of_pairwise hsame (pairwise_ranked_le ds) (pairwise_ranked_le es)
    ((ranked_perm ds).trans (hp.trans (ranked_perm es).symm))

/-- Engines that go leave the others in their order. -/
theorem ranked_filter {ds : List Descriptor} (h : DistinctIds ds) (p : Descriptor → Bool) :
    ranked (ds.filter p) = (ranked ds).filter p := by
  have hfiltered : DistinctIds (ds.filter p) := h.sublist (List.filter_sublist.map _)
  calc ranked (ds.filter p)
      = ranked ((ranked ds).filter p) :=
        ranked_eq_of_perm hfiltered ((ranked_perm ds).symm.filter p)
    _ = (ranked ds).filter p :=
        List.mergeSort_of_pairwise ((pairwise_ranked_le ds).filter p)

/-- A change of the engines that leaves their priorities alone leaves their order alone. -/
theorem ranked_map {f : Descriptor → Descriptor} (hf : ∀ d, (f d).priority = d.priority)
    (ds : List Descriptor) : ranked (ds.map f) = (ranked ds).map f := by
  refine (List.map_mergeSort ?_).symm
  intro a _ b _
  rw [hf, hf]

end Snapshot

/-! ## The table of owners -/

namespace Claims

/-- A claim enters the table only where nobody has claimed before. -/
theorem get?_claim (c : Claims) (d : Descriptor) (kind : Association) (key : String)
    (k : Association × String) :
    (c.claim d kind key).owners.get? k =
      (c.owners.get? k).or (if k = (kind, key) then some d else none) := by
  unfold claim
  split
  · next hfree =>
      rw [OrderedMap.get?_insert]
      by_cases hk : k = (kind, key)
      · simp [hk, hfree]
      · simp [hk]
  · next owner howner =>
      have hkeep : c.owners.get? k = (c.owners.get? k).or (if k = (kind, key) then some d else none) := by
        by_cases hk : k = (kind, key)
        · simp [hk, howner]
        · simp [hk]
      split <;> exact hkeep

theorem get?_foldl_claim (keys : List String) (c : Claims) (d : Descriptor) (kind : Association)
    (k : Association × String) :
    (keys.foldl (fun c key => c.claim d kind key) c).owners.get? k =
      (c.owners.get? k).or (if k.1 = kind ∧ k.2 ∈ keys then some d else none) := by
  induction keys generalizing c with
  | nil => simp
  | cons key keys ih =>
      rw [List.foldl_cons, ih, get?_claim, Option.or_assoc]
      congr 1
      obtain ⟨kind', key'⟩ := k
      by_cases hkind : kind' = kind <;> by_cases hkey : key' = key <;> simp [hkind, hkey]

theorem get?_claimAll (c : Claims) (d : Descriptor) (kind : Association)
    (k : Association × String) :
    (c.claimAll d kind).owners.get? k =
      (c.owners.get? k).or (if k.1 = kind ∧ k.2 ∈ d.claims kind then some d else none) :=
  get?_foldl_claim _ c d kind k

/-- An engine gets what it claims and nobody before it has claimed. -/
theorem get?_enter (c : Claims) (d : Descriptor) (k : Association × String) :
    (c.enter d).owners.get? k =
      (c.owners.get? k).or (if k.2 ∈ d.claims k.1 then some d else none) := by
  unfold enter
  rw [get?_claimAll, get?_claimAll, get?_claimAll, Option.or_assoc, Option.or_assoc]
  congr 1
  obtain ⟨kind, key⟩ := k
  cases kind <;> simp

/-- The invariant of the loop that fills the table: what is there stays, and the rest goes to the
first claimant. -/
theorem get?_foldl_enter (ds : List Descriptor) (c : Claims) (k : Association × String) :
    (ds.foldl enter c).owners.get? k =
      (c.owners.get? k).or (ds.find? fun d => (d.claims k.1).contains k.2) := by
  induction ds generalizing c with
  | nil => simp
  | cons d ds ih =>
      rw [List.foldl_cons, ih, get?_enter, Option.or_assoc, List.find?_cons]
      congr 1
      by_cases hk : k.2 ∈ d.claims k.1 <;> simp [hk]

end Claims

namespace Snapshot

/-- **A key belongs to its first claimant in the order of precedence.** -/
theorem owner?_build (generation : Nat) (ds : List Descriptor) (kind : Association)
    (key : String) :
    (build generation ds).owner? kind key =
      (ranked ds).find? fun d => (d.claims kind).contains (kind.lookupForm key) := by
  unfold owner? build
  rw [Claims.get?_foldl_enter]
  rfl

theorem build_eq_of_perm {ds es : List Descriptor} (h : DistinctIds ds) (hp : ds.Perm es)
    (generation : Nat) : build generation ds = build generation es := by
  unfold build
  rw [ranked_eq_of_perm h hp]

end Snapshot

end ScriptHost
