import Mathlib.Data.List.Flatten
import ScriptHost.Engine.Registry
import ScriptHost.Proofs.Engine.Precedence

/-! # Registries that come about

A registry starts empty and goes through registrations, withdrawals and changes of its listeners, in
any order. `Registration.Outcome` says once what a request can do to it: it either leaves members and
snapshot alone, or publishes members from which some were withdrawn and to which engines with new
numbers were added. The invariant `Sound` follows from that: no number is ever used twice, and what
is published is built from the members. -/

namespace ScriptHost

/-! ## Members -/

namespace Members

/-- A package without engines adds nothing, so dropping it changes nothing. -/
theorem flatMap_dropEmpty (p : Descriptor → Bool) (packages : List (String × List Descriptor)) :
    ((packages.map fun e => (e.1, e.2.filter p)).filter fun e => !e.2.isEmpty).flatMap Prod.snd =
      (packages.flatMap Prod.snd).filter p := by
  induction packages with
  | nil => rfl
  | cons e es ih =>
      rw [List.map_cons, List.flatMap_cons, List.filter_append, ← ih]
      cases h : e.2.filter p with
      | nil => rw [List.filter_cons_of_neg (by simp), List.nil_append]
      | cons d ds => rw [List.filter_cons_of_pos (by simp), List.flatMap_cons]

/-- What a withdrawal leaves, over all three kinds of registration. -/
theorem all_withdraw (m : Members) (ids : List Nat) :
    (m.withdraw ids).all = m.all.filter fun d => !ids.contains d.id := by
  unfold all withdraw
  simp only [OrderedMap.filter, OrderedMap.mapValues, List.filter_append]
  rw [flatMap_dropEmpty]

theorem all_erase_sublist (m : Members) (name : String) :
    ({ m with packages := m.packages.erase name } : Members).all.Sublist m.all := by
  have hp : ((m.packages.erase name).entries.flatMap Prod.snd).Sublist
      (m.packages.entries.flatMap Prod.snd) :=
    List.filter_sublist.flatMap Prod.snd
  exact ((List.Sublist.refl _).append hp).append (List.Sublist.refl _)

/-- A package takes the place of what it had; all others stay. -/
theorem all_insert_perm (m : Members) (name : String) (ds : List Descriptor) :
    ({ m with packages := m.packages.insert name ds } : Members).all.Perm
      (({ m with packages := m.packages.erase name } : Members).all ++ ds) := by
  have hp : ((m.packages.insert name ds).entries.flatMap Prod.snd).Perm
      ((m.packages.erase name).entries.flatMap Prod.snd ++ ds) := by
    simpa using (OrderedMap.entries_insert_perm m.packages name ds).flatMap_right Prod.snd
  unfold all
  refine ((hp.append_left m.platform).append_right m.dynamic).trans ?_
  simp only [List.append_assoc]
  exact (List.perm_append_comm.append_left _).append_left _

end Members

/-! ## Numbers -/

theorem Descriptor.capture_id {f : Factory} {origin : Origin} {id : Nat} {p : Properties}
    {d : Descriptor} (h : Descriptor.capture f origin id p = .ok d) : d.id = id := by
  unfold Descriptor.capture at h
  dsimp only at h
  split at h
  · cases h
  · split at h
    · cases h
    · cases h
      rfl

namespace EngineRegistry

variable {ℓ : Type}

/-- Engines that are taken down together get numbers in a row, from the next one on. -/
theorem captureAll_ok {origin : Origin} {engines : List (Factory × Properties)} {next next' : Nat}
    {ds : List Descriptor} (h : captureAll origin next engines = (.ok ds, next')) :
    ds.map Descriptor.id = List.range' next engines.length ∧ next' = next + engines.length := by
  induction engines generalizing next ds next' with
  | nil =>
      cases h
      simp
  | cons e rest ih =>
      obtain ⟨f, p⟩ := e
      simp only [captureAll] at h
      split at h
      · cases h
      · next d hd =>
          rcases hr : captureAll origin (next + 1) rest with ⟨result, after⟩
          rw [hr] at h
          cases result with
          | error e => cases h
          | ok ds' =>
              cases h
              obtain ⟨hids, hnext⟩ := ih hr
              refine ⟨?_, ?_⟩
              · rw [List.map_cons, Descriptor.capture_id hd, hids, List.length_cons,
                  List.range'_succ]
              · rw [hnext, List.length_cons]
                omega

/-- No number is given back, not even after a refusal. -/
theorem le_captureAll (origin : Origin) (next : Nat) (engines : List (Factory × Properties)) :
    next ≤ (captureAll origin next engines).2 := by
  induction engines generalizing next with
  | nil => exact Nat.le_refl next
  | cons e rest ih =>
      obtain ⟨f, p⟩ := e
      simp only [captureAll]
      split
      · exact Nat.le_succ next
      · exact Nat.le_trans (Nat.le_succ next) (ih (next + 1))

end EngineRegistry

/-! ## What a request can do -/

/-- How members and the next number can change when something is published. -/
inductive Members.Change (m : Members) (next : Nat) : Members → Nat → Prop where
  | withdrawn {m' : Members} : m'.all.Sublist m.all → Change m next m' next
  | enrolled {m' : Members} {kept ds : List Descriptor} {count : Nat} :
      kept.Sublist m.all → ds.map Descriptor.id = List.range' next count →
      m'.all.Perm (kept ++ ds) → Change m next m' (next + count)

/-- What a request can do to a registry: it leaves all but the next number alone and publishes
nothing, or it changes the members and publishes them. -/
inductive Registration.Outcome {ℓ : Type} (r : EngineRegistry ℓ) :
    EngineRegistry ℓ × Option (Publication ℓ) → Prop where
  | idle {next : Nat} : r.nextId ≤ next → Outcome r ({ r with nextId := next }, none)
  | published {members : Members} {next : Nat} : r.members.Change r.nextId members next →
      Outcome r (({ r with nextId := next }.publish members).1,
        some ({ r with nextId := next }.publish members).2)

namespace EngineRegistry

variable {ℓ : Type}

theorem enroll_outcome (r : EngineRegistry ℓ) (origin : Origin)
    (engines : List (Factory × Properties)) (place : Members → List Descriptor → Members)
    (hplace : ∀ m ds, ∃ kept : List Descriptor,
      kept.Sublist m.all ∧ (place m ds).all.Perm (kept ++ ds)) :
    Registration.Outcome r (r.enroll origin engines place).2 := by
  unfold enroll
  rcases hc : captureAll origin r.nextId engines with ⟨result, next⟩
  cases result with
  | error e =>
      have hle := le_captureAll origin r.nextId engines
      rw [hc] at hle
      exact .idle hle
  | ok ds =>
      obtain ⟨hids, rfl⟩ := captureAll_ok hc
      obtain ⟨kept, hkept, hperm⟩ := hplace r.members ds
      exact .published (.enrolled hkept hids hperm)

theorem withdraw_outcome (r : EngineRegistry ℓ) (ids : List Nat) :
    Registration.Outcome r (r.withdraw ids).2 := by
  unfold withdraw
  split
  · refine .published (.withdrawn ?_)
    rw [Members.all_withdraw]
    exact List.filter_sublist
  · exact .idle (Nat.le_refl _)

theorem dropPackage_outcome (r : EngineRegistry ℓ) (name : String) :
    Registration.Outcome r (r.dropPackage name).2 := by
  unfold dropPackage
  split
  · exact .published (.withdrawn (Members.all_erase_sublist r.members name))
  · exact .idle (Nat.le_refl _)

/-- **The step lemma of the registry.** -/
theorem apply_outcome (r : EngineRegistry ℓ) (request : Registration) :
    Registration.Outcome r (r.apply request).2 := by
  cases request with
  | platform f rank =>
      refine enroll_outcome r _ _ _ fun m ds => ⟨m.all, List.Sublist.refl _, ?_⟩
      unfold Members.all
      simp only [List.append_assoc]
      refine List.Perm.append_left _ ?_
      exact List.perm_append_comm.trans (by simp only [List.append_assoc]; exact List.Perm.refl _)
  | dynamic f p =>
      refine enroll_outcome r _ _ _ fun m ds => ⟨m.all, List.Sublist.refl _, ?_⟩
      unfold Members.all
      simp only [List.append_assoc]
      exact List.Perm.refl _
  | package name engines =>
      unfold apply
      dsimp only
      split
      · exact .idle (Nat.le_refl _)
      · split
        · exact dropPackage_outcome r _
        · refine enroll_outcome r _ _ _ fun m ds => ?_
          exact ⟨_, Members.all_erase_sublist m _, Members.all_insert_perm m _ ds⟩
  | removePackage name => exact dropPackage_outcome r name
  | unregister id => exact withdraw_outcome r [id]
  | unregisterFactory factory => exact withdraw_outcome r (r.idsOf factory)

/-! ## The invariant -/

/-- The registries that come about, by any requests and any changes of the listeners. -/
inductive Reachable : EngineRegistry ℓ → Prop where
  | empty : Reachable EngineRegistry.empty
  | apply {r : EngineRegistry ℓ} (request : Registration) :
      Reachable r → Reachable (r.apply request).2.1
  | subscribe {r : EngineRegistry ℓ} (listener : ℓ) :
      Reachable r → Reachable (r.subscribe listener).2
  | unsubscribe {r : EngineRegistry ℓ} (id : Nat) :
      Reachable r → Reachable (r.unsubscribe id).2

/-- Every member has a number of its own that has been given out, and the snapshot is built from the
members. -/
structure Sound (r : EngineRegistry ℓ) : Prop where
  distinct : DistinctIds r.members.all
  below : ∀ d ∈ r.members.all, d.id < r.nextId
  published : r.snapshot = Snapshot.build r.snapshot.generation r.members.all

theorem distinct_of_change {m m' : Members} {next next' : Nat} (h : m.Change next m' next')
    (hd : DistinctIds m.all) (hb : ∀ d ∈ m.all, d.id < next) :
    DistinctIds m'.all ∧ ∀ d ∈ m'.all, d.id < next' := by
  cases h with
  | withdrawn hs => exact ⟨hd.sublist (hs.map _), fun d hd' => hb d (hs.subset hd')⟩
  | @enrolled kept ds count hkept hids hperm =>
      -- The new numbers begin where those given out so far end.
      have hnew : ∀ d ∈ ds, next ≤ d.id ∧ d.id < next + count := by
        intro d hd'
        have hmem : d.id ∈ List.range' next count := hids ▸ List.mem_map_of_mem hd'
        simpa [List.mem_range'_1] using hmem
      have hold : ∀ d ∈ kept, d.id < next := fun d hd' => hb d (hkept.subset hd')
      constructor
      · refine DistinctIds.perm ?_ hperm.symm
        unfold DistinctIds
        rw [List.map_append, List.nodup_append]
        refine ⟨hd.sublist (hkept.map _), hids ▸ List.nodup_range', ?_⟩
        intro a ha b hb' hab
        obtain ⟨d, hd', rfl⟩ := List.mem_map.mp ha
        obtain ⟨e, he, rfl⟩ := List.mem_map.mp hb'
        have := hold d hd'
        have := hnew e he
        omega
      · intro d hd'
        rcases List.mem_append.mp (hperm.mem_iff.mp hd') with h | h
        · have := hold d h
          omega
        · exact (hnew d h).2

theorem Sound.apply {r : EngineRegistry ℓ} (h : r.Sound) (request : Registration) :
    (r.apply request).2.1.Sound := by
  have ho := apply_outcome r request
  generalize (r.apply request).2 = out at ho ⊢
  cases ho with
  | idle hle => exact ⟨h.distinct, fun d hd => Nat.lt_of_lt_of_le (h.below d hd) hle, h.published⟩
  | published hc =>
      obtain ⟨hd, hb⟩ := distinct_of_change hc h.distinct h.below
      exact ⟨hd, hb, rfl⟩

/-- **Every registry that comes about is sound.** -/
theorem Reachable.sound {r : EngineRegistry ℓ} (h : r.Reachable) : r.Sound := by
  induction h with
  | empty => exact ⟨List.nodup_nil, by simp [EngineRegistry.empty, Members.empty, Members.all,
      OrderedMap.empty], rfl⟩
  | apply request _ ih => exact ih.apply request
  | subscribe listener _ ih => exact ⟨ih.distinct, ih.below, ih.published⟩
  | unsubscribe id _ ih => exact ⟨ih.distinct, ih.below, ih.published⟩

/-! ## Listeners -/

theorem apply_listeners (r : EngineRegistry ℓ) (request : Registration) :
    (r.apply request).2.1.listeners = r.listeners ∧
      (r.apply request).2.1.nextListener = r.nextListener := by
  have ho := apply_outcome r request
  generalize (r.apply request).2 = out at ho ⊢
  cases ho with
  | idle _ => exact ⟨rfl, rfl⟩
  | published _ => exact ⟨rfl, rfl⟩

/-- The listeners stand in the order in which they subscribed, each with a number of its own. -/
structure Enlisted (r : EngineRegistry ℓ) : Prop where
  increasing : (r.listeners.map Prod.fst).Pairwise (· < ·)
  below : ∀ l ∈ r.listeners, l.1 < r.nextListener

theorem Reachable.enlisted {r : EngineRegistry ℓ} (h : r.Reachable) : r.Enlisted := by
  induction h with
  | empty => exact ⟨.nil, by simp [EngineRegistry.empty]⟩
  | @apply r request _ ih =>
      obtain ⟨hlisteners, hnext⟩ := apply_listeners r request
      refine ⟨hlisteners ▸ ih.increasing, ?_⟩
      rw [hlisteners, hnext]
      exact ih.below
  | @subscribe r listener _ ih =>
      constructor
      · show ((r.listeners ++ [(r.nextListener, listener)]).map Prod.fst).Pairwise (· < ·)
        rw [List.map_append, List.pairwise_append]
        refine ⟨ih.increasing, List.pairwise_singleton _ _, ?_⟩
        intro a ha b hb
        obtain ⟨l, hl, rfl⟩ := List.mem_map.mp ha
        rw [List.mem_singleton.mp hb]
        exact ih.below l hl
      · intro l hl
        show l.1 < r.nextListener + 1
        rcases List.mem_append.mp hl with hl | hl
        · exact Nat.lt_succ_of_lt (ih.below l hl)
        · rw [List.mem_singleton.mp hl]
          exact Nat.lt_succ_self _
  | @unsubscribe r id _ ih =>
      have hsub : (r.unsubscribe id).2.listeners.Sublist r.listeners := List.filter_sublist
      exact ⟨ih.increasing.sublist (hsub.map _), fun l hl => ih.below l (hsub.subset hl)⟩

theorem Sound.distinct_published {r : EngineRegistry ℓ} (h : r.Sound) :
    DistinctIds r.snapshot.engines := by
  rw [h.published]
  exact h.distinct.perm (Snapshot.ranked_perm r.members.all).symm

/-! ## The course of a registry -/

/-- What happens to a registry. -/
inductive Act (ℓ : Type) where
  | apply (request : Registration)
  | subscribe (listener : ℓ)
  | unsubscribe (id : Nat)

def act (r : EngineRegistry ℓ) : Act ℓ → EngineRegistry ℓ
  | .apply request => (r.apply request).2.1
  | .subscribe listener => (r.subscribe listener).2
  | .unsubscribe id => (r.unsubscribe id).2

def through (r : EngineRegistry ℓ) (acts : List (Act ℓ)) : EngineRegistry ℓ :=
  acts.foldl act r

/-- The snapshots that a registry has had, from the first on, at every moment. -/
def shown (r : EngineRegistry ℓ) : List (Act ℓ) → List Snapshot
  | [] => [r.snapshot]
  | a :: rest => r.snapshot :: (r.act a).shown rest

/-- A registry keeps its snapshot or publishes the next generation. -/
theorem snapshot_act (r : EngineRegistry ℓ) (a : Act ℓ) :
    (r.act a).snapshot = r.snapshot ∨
      (r.act a).snapshot.generation = r.snapshot.generation + 1 := by
  cases a with
  | apply request =>
      have ho := apply_outcome r request
      show (r.apply request).2.1.snapshot = r.snapshot ∨
        (r.apply request).2.1.snapshot.generation = r.snapshot.generation + 1
      generalize (r.apply request).2 = out at ho ⊢
      cases ho with
      | idle _ => exact .inl rfl
      | published _ => exact .inr rfl
  | subscribe listener => exact .inl rfl
  | unsubscribe id => exact .inl rfl

/-- What is shown later is the same or newer. -/
theorem eq_or_lt_of_mem_shown {r : EngineRegistry ℓ} {acts : List (Act ℓ)} {s : Snapshot}
    (h : s ∈ r.shown acts) : s = r.snapshot ∨ r.snapshot.generation < s.generation := by
  induction acts generalizing r with
  | nil => exact .inl (List.mem_singleton.mp h)
  | cons a rest ih =>
      rcases List.mem_cons.mp h with rfl | h
      · exact .inl rfl
      · rcases ih h with rfl | hlt
        · rcases r.snapshot_act a with hsame | hnext
          · exact .inl hsame
          · right
            omega
        · rcases r.snapshot_act a with hsame | hnext
          · exact .inr (hsame ▸ hlt)
          · right
            omega

/-- **A generation of a registry is one snapshot.** -/
theorem eq_of_generation {r : EngineRegistry ℓ} {acts : List (Act ℓ)} {s t : Snapshot}
    (hs : s ∈ r.shown acts) (ht : t ∈ r.shown acts) (h : s.generation = t.generation) : s = t := by
  induction acts generalizing r with
  | nil => rw [List.mem_singleton.mp hs, List.mem_singleton.mp ht]
  | cons a rest ih =>
      -- Of two snapshots one may be the first; the other is the same then, or newer.
      rcases List.mem_cons.mp hs with rfl | hs'
      · rcases eq_or_lt_of_mem_shown ht with rfl | hlt
        · rfl
        · omega
      · rcases List.mem_cons.mp ht with rfl | ht'
        · rcases eq_or_lt_of_mem_shown hs with rfl | hlt
          · rfl
          · omega
        · exact ih hs' ht'

theorem snapshot_mem_shown (r : EngineRegistry ℓ) (acts more : List (Act ℓ)) :
    (r.through acts).snapshot ∈ r.shown (acts ++ more) := by
  induction acts generalizing r with
  | nil => cases more <;> exact List.mem_cons_self
  | cons a rest ih => exact List.mem_cons_of_mem _ (ih (r.act a))

end EngineRegistry

end ScriptHost
