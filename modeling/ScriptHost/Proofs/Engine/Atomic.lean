import Mathlib
import ScriptHost.Proofs.Engine.Reachable
import ScriptHost.Template.Engine

/-! # Requests are met as a whole or not at all

A request to a registry has two sides: which registrations it withdraws and which engines it adds.
`Registration.Effect` says what it comes to: it is refused, it has nothing to do, or all of it is
done and published once. Which registrations a package has can be read off their origins, since
every registration is filed under its origin and no package is empty (`Members.Filed`). The main
theorem puts the two sides together: a request that fails leaves members and snapshot alone and
tells nobody; any other publishes just what it asks for, to everyone who listens. -/

namespace ScriptHost

/-! ## What a request asks for -/

/-- A factory that cannot be registered like this: it has no name, or nothing to be found by. -/
def Factory.Unfit (f : Factory) (p : Properties) : Prop :=
  Text.trim f.engineName = "" ∨
    (p.names.getD f.names = [] ∧ Association.normalize (p.extensions.getD f.extensions) = [] ∧
      Association.normalize (p.mimeTypes.getD f.mimeTypes) = [])

namespace Registration

/-- The engines to be registered. -/
def engines : Registration → List (Factory × Properties)
  | .platform f rank => [(f, { rank })]
  | .dynamic f p => [(f, p)]
  | .package _ engines => engines.map fun e => (e.1, { rank := e.2 })
  | .removePackage _ | .unregister _ | .unregisterFactory _ => []

/-- Where the engines of a request come from. -/
def origin : Registration → Origin
  | .platform _ _ => .platform
  | .package name _ => .package (Text.trim name)
  | _ => .dynamic

/-- Whether a request withdraws a registration. A package withdraws what it declared before. -/
def withdraws : Registration → Descriptor → Bool
  | .platform _ _, _ | .dynamic _ _, _ => false
  | .package name _, d => d.origin = .package (Text.trim name)
  | .removePackage name, d => d.origin = .package name
  | .unregister id, d => d.id = id
  | .unregisterFactory factory, d => d.factory.id = factory

/-- A request that cannot be met: for a package without a name, or with an engine that is unfit. -/
def Unfit (q : Registration) : Prop :=
  (∃ name engines, q = .package name engines ∧ Text.trim name = "") ∨
    ∃ e ∈ q.engines, e.1.Unfit e.2

/-- The answer to a request that is not refused: the numbers of the engines it has added, or whether
it has withdrawn any. -/
def answer (q : Registration) (any : Bool) (added : List Descriptor) : Reply :=
  match q with
  | .platform _ _ | .dynamic _ _ | .package _ _ => .registered (added.map Descriptor.id)
  | .removePackage _ | .unregister _ | .unregisterFactory _ => .withdrawn any

/-- The engines that a request adds are what its factories declare, with numbers in a row. -/
structure Adds (q : Registration) (next : Nat) (added : List Descriptor) : Prop where
  captured : List.Forall₂ (fun e d => Descriptor.capture e.1 q.origin d.id e.2 = .ok d)
    q.engines added
  numbers : added.map Descriptor.id = List.range' next q.engines.length

/-- Every engine that a request adds has been taken down for one that it names. -/
theorem Adds.exists_engine {q : Registration} {next : Nat} {added : List Descriptor}
    (h : q.Adds next added) {d : Descriptor} (hd : d ∈ added) :
    ∃ e ∈ q.engines, Descriptor.capture e.1 q.origin d.id e.2 = .ok d := by
  obtain ⟨hcaptured, -⟩ := h
  generalize q.engines = engines at hcaptured
  induction hcaptured with
  | nil => cases hd
  | @cons e d' engines added hd' _ ih =>
      rcases List.mem_cons.mp hd with rfl | hd
      · exact ⟨e, List.mem_cons_self, hd'⟩
      · obtain ⟨e', he', hcapture⟩ := ih hd
        exact ⟨e', List.mem_cons_of_mem e he', hcapture⟩

/-- The factories and the numbers leave no choice in what is added. -/
theorem Adds.unique {q : Registration} {next : Nat} {added added' : List Descriptor}
    (h : q.Adds next added) (h' : q.Adds next added') : added = added' := by
  obtain ⟨hcaptured, hnumbers⟩ := h
  obtain ⟨hcaptured', hnumbers'⟩ := h'
  have hids : added.map Descriptor.id = added'.map Descriptor.id := hnumbers.trans hnumbers'.symm
  clear hnumbers hnumbers'
  generalize q.engines = engines at hcaptured hcaptured'
  induction hcaptured generalizing added' with
  | nil =>
      cases hcaptured'
      rfl
  | @cons e d engines added hd _ ih =>
      cases hcaptured' with
      | @cons _ d' _ added' hd' htail' =>
          obtain ⟨hid, hids⟩ := List.cons.inj hids
          rw [← hid] at hd'
          have hsame : d = d' := Except.ok.inj (hd.symm.trans hd')
          rw [hsame, ih hids htail']

/-- The members after a request: those that it does not withdraw, and those that it adds. -/
def Replaces (q : Registration) (m m' : Members) (added : List Descriptor) : Prop :=
  m'.all.Perm ((m.all.filter fun d => !q.withdraws d) ++ added)

/-- A request without engines is fit, but for a package without a name. -/
theorem not_unfit {q : Registration}
    (hnamed : ∀ name engines, q = .package name engines → Text.trim name ≠ "")
    (hnone : q.engines = []) : ¬ q.Unfit := by
  rintro (⟨name, engines, hq, hname⟩ | ⟨e, he, _⟩)
  · exact hnamed name engines hq hname
  · rw [hnone] at he
    cases he

/-- What a request comes to. -/
inductive Effect {ℓ : Type} (r : EngineRegistry ℓ) (q : Registration) :
    Reply × EngineRegistry ℓ × Option (Publication ℓ) → Prop where
  | refused {e : RegisterError} {next : Nat} : q.Unfit →
      Effect r q (.refused e, { r with nextId := next }, none)
  | idle : ¬ q.Unfit → q.engines = [] → (∀ d ∈ r.members.all, q.withdraws d = false) →
      Effect r q (q.answer false [], r, none)
  | met {added : List Descriptor} {members : Members} {next : Nat} : ¬ q.Unfit →
      (q.engines ≠ [] ∨ ∃ d ∈ r.members.all, q.withdraws d = true) → q.Adds r.nextId added →
      q.Replaces r.members members added →
      Effect r q (q.answer true added, ({ r with nextId := next }.publish members).1,
        some ({ r with nextId := next }.publish members).2)

end Registration

/-! ## Taking engines down -/

theorem Descriptor.capture_cases (f : Factory) (origin : Origin) (id : Nat) (p : Properties) :
    (f.Unfit p ∧ ∃ e, capture f origin id p = .error e) ∨
      (¬ f.Unfit p ∧ ∃ d, capture f origin id p = .ok d ∧ d.id = id ∧ d.origin = origin) := by
  unfold Factory.Unfit capture
  dsimp only
  split
  · next hname => exact .inl ⟨.inl hname, _, rfl⟩
  · next hname =>
      split
      · next hnone => exact .inl ⟨.inr hnone, _, rfl⟩
      · next hnone =>
          refine .inr ⟨?_, _, rfl, rfl, rfl⟩
          rintro (h | h)
          · exact hname h
          · exact hnone h

namespace EngineRegistry

variable {ℓ : Type}

/-- Engines are all taken down, or one of them is unfit. -/
theorem captureAll_cases (origin : Origin) (next : Nat) (engines : List (Factory × Properties)) :
    ((∃ e ∈ engines, e.1.Unfit e.2) ∧
        ∃ e next', captureAll origin next engines = (.error e, next')) ∨
      ((¬ ∃ e ∈ engines, e.1.Unfit e.2) ∧
        ∃ ds next', captureAll origin next engines = (.ok ds, next') ∧
          List.Forall₂ (fun e d => Descriptor.capture e.1 origin d.id e.2 = .ok d) engines ds ∧
          ∀ d ∈ ds, d.origin = origin) := by
  induction engines generalizing next with
  | nil => exact .inr ⟨by simp, [], next, rfl, .nil, by simp⟩
  | cons x rest ih =>
      obtain ⟨f, p⟩ := x
      rcases Descriptor.capture_cases f origin next p with ⟨hunfit, e, hd⟩ | ⟨hfit, d, hd, hid, ho⟩
      · refine .inl ⟨⟨(f, p), List.mem_cons_self, hunfit⟩, e, next + 1, ?_⟩
        simp only [captureAll, hd]
      · rcases ih (next + 1) with ⟨⟨y, hy, hunfit⟩, e, next', hrest⟩ |
          ⟨hall, ds, next', hrest, hcaptured, horigin⟩
        · refine .inl ⟨⟨y, List.mem_cons_of_mem _ hy, hunfit⟩, e, next', ?_⟩
          simp only [captureAll, hd, hrest]
          rfl
        · refine .inr ⟨?_, d :: ds, next', ?_, .cons (hid ▸ hd) hcaptured, ?_⟩
          · rintro ⟨y, hy, hunfit⟩
            rcases List.mem_cons.mp hy with rfl | hy
            · exact hfit hunfit
            · exact hall ⟨y, hy, hunfit⟩
          · simp only [captureAll, hd, hrest]
            rfl
          · intro d' hd'
            rcases List.mem_cons.mp hd' with rfl | hd'
            · exact ho
            · exact horigin d' hd'

theorem apply_platform (r : EngineRegistry ℓ) (f : Factory) (rank : Int) :
    r.apply (.platform f rank) = r.enroll .platform [(f, { rank })]
      fun m ds => { m with platform := m.platform ++ ds } := rfl

theorem apply_dynamic (r : EngineRegistry ℓ) (f : Factory) (p : Properties) :
    r.apply (.dynamic f p) = r.enroll .dynamic [(f, p)]
      fun m ds => { m with dynamic := m.dynamic ++ ds } := rfl

/-- Engines of one origin are all enrolled, or the registration is refused. -/
theorem enroll_cases (r : EngineRegistry ℓ) (origin : Origin)
    (engines : List (Factory × Properties)) (place : Members → List Descriptor → Members) :
    ((∃ e ∈ engines, e.1.Unfit e.2) ∧ ∃ e next,
        r.enroll origin engines place = (.refused e, { r with nextId := next }, none)) ∨
      ((¬ ∃ e ∈ engines, e.1.Unfit e.2) ∧ ∃ ds next,
        r.enroll origin engines place = (.registered (ds.map Descriptor.id),
          ({ r with nextId := next }.publish (place r.members ds)).1,
          some ({ r with nextId := next }.publish (place r.members ds)).2) ∧
        List.Forall₂ (fun e d => Descriptor.capture e.1 origin d.id e.2 = .ok d) engines ds ∧
        ds.map Descriptor.id = List.range' r.nextId engines.length ∧
        ∀ d ∈ ds, d.origin = origin) := by
  unfold enroll
  rcases captureAll_cases origin r.nextId engines with ⟨hunfit, e, next, h⟩ |
    ⟨hfit, ds, next, h, hcaptured, horigin⟩
  · exact .inl ⟨hunfit, e, next, by rw [h]⟩
  · exact .inr ⟨hfit, ds, next, by rw [h], hcaptured, (captureAll_ok h).1, horigin⟩

end EngineRegistry

/-! ## Filed registrations -/

namespace Members

/-- Every registration is filed under its origin, and no package is empty. -/
structure Filed (m : Members) : Prop where
  platform : ∀ d ∈ m.platform, d.origin = .platform
  packages : ∀ e ∈ m.packages.entries, e.2 ≠ [] ∧ ∀ d ∈ e.2, d.origin = .package e.1
  dynamic : ∀ d ∈ m.dynamic, d.origin = .dynamic

/-- The registrations of a package are those with its origin. -/
theorem Filed.contains_iff {m : Members} (h : m.Filed) (name : String) :
    m.packages.contains name = true ↔ ∃ d ∈ m.all, d.origin = .package name := by
  rw [OrderedMap.contains_iff]
  unfold OrderedMap.keys all
  constructor
  · intro hname
    obtain ⟨e, he, rfl⟩ := List.mem_map.mp hname
    obtain ⟨hne, horigin⟩ := h.packages e he
    obtain ⟨d, hd⟩ := List.exists_mem_of_ne_nil _ hne
    have hmem : d ∈ m.packages.entries.flatMap Prod.snd := List.mem_flatMap.mpr ⟨e, he, hd⟩
    exact ⟨d, List.mem_append_left _ (List.mem_append_right _ hmem), horigin d hd⟩
  · rintro ⟨d, hd, horigin⟩
    rcases List.mem_append.mp hd with hd | hd
    · rcases List.mem_append.mp hd with hd | hd
      · rw [h.platform d hd] at horigin
        cases horigin
      · obtain ⟨e, he, hd⟩ := List.mem_flatMap.mp hd
        rw [(h.packages e he).2 d hd] at horigin
        cases horigin
        exact List.mem_map_of_mem he
    · rw [h.dynamic d hd] at horigin
      cases horigin

theorem flatMap_drop (name : String) {packages : List (String × List Descriptor)}
    (h : ∀ e ∈ packages, ∀ d ∈ e.2, d.origin = .package e.1) :
    (packages.filter fun e => e.1 != name).flatMap Prod.snd =
      (packages.flatMap Prod.snd).filter fun d => !decide (d.origin = .package name) := by
  induction packages with
  | nil => rfl
  | cons e es ih =>
      obtain ⟨he, hes⟩ := List.forall_mem_cons.mp h
      rw [List.flatMap_cons, List.filter_append, ← ih hes]
      by_cases hname : e.1 = name
      · have hnone : e.2.filter (fun d => !decide (d.origin = .package name)) = [] := by
          refine List.filter_eq_nil_iff.mpr fun d hd => ?_
          simp [he d hd, hname]
        rw [List.filter_cons_of_neg (by simp [hname]), hnone, List.nil_append]
      · have hall : e.2.filter (fun d => !decide (d.origin = .package name)) = e.2 := by
          refine List.filter_eq_self.mpr fun d hd => ?_
          simp [he d hd, hname]
        rw [List.filter_cons_of_pos (by simp [hname]), List.flatMap_cons, hall]

/-- Dropping a package withdraws its registrations and no others. -/
theorem Filed.all_erase {m : Members} (h : m.Filed) (name : String) :
    ({ m with packages := m.packages.erase name } : Members).all =
      m.all.filter fun d => !decide (d.origin = .package name) := by
  have hplatform : m.platform.filter (fun d => !decide (d.origin = .package name)) = m.platform :=
    List.filter_eq_self.mpr fun d hd => by simp [h.platform d hd]
  have hdynamic : m.dynamic.filter (fun d => !decide (d.origin = .package name)) = m.dynamic :=
    List.filter_eq_self.mpr fun d hd => by simp [h.dynamic d hd]
  unfold all
  rw [List.filter_append, List.filter_append, hplatform, hdynamic,
    ← flatMap_drop name fun e he => (h.packages e he).2]
  rfl

theorem Filed.withdraw {m : Members} (h : m.Filed) (ids : List Nat) : (m.withdraw ids).Filed where
  platform := fun d hd => h.platform d (List.mem_of_mem_filter hd)
  packages := by
    intro e he
    obtain ⟨he, hne⟩ := List.mem_filter.mp he
    obtain ⟨e', he', rfl⟩ := List.mem_map.mp he
    refine ⟨by simpa using hne, fun d hd => ?_⟩
    exact (h.packages e' he').2 d (List.mem_of_mem_filter hd)
  dynamic := fun d hd => h.dynamic d (List.mem_of_mem_filter hd)

theorem Filed.erase {m : Members} (h : m.Filed) (name : String) :
    ({ m with packages := m.packages.erase name } : Members).Filed :=
  ⟨h.platform, fun e he => h.packages e (List.mem_of_mem_filter he), h.dynamic⟩

theorem Filed.insert {m : Members} (h : m.Filed) {name : String} {ds : List Descriptor}
    (hne : ds ≠ []) (horigin : ∀ d ∈ ds, d.origin = .package name) :
    ({ m with packages := m.packages.insert name ds } : Members).Filed := by
  refine ⟨h.platform, fun e he => ?_, h.dynamic⟩
  rcases List.mem_append.mp ((m.packages.entries_insert_perm name ds).mem_iff.mp he) with he | he
  · exact h.packages e (List.mem_of_mem_filter he)
  · rw [List.mem_singleton.mp he]
    exact ⟨hne, horigin⟩

end Members

namespace EngineRegistry

variable {ℓ : Type}

theorem filed_apply {r : EngineRegistry ℓ} (h : r.members.Filed) (q : Registration) :
    (r.apply q).2.1.members.Filed := by
  -- Engines that are enrolled go where their origin says.
  have henroll : ∀ (origin : Origin) (engines : List (Factory × Properties))
      (place : Members → List Descriptor → Members),
      (∀ ds : List Descriptor, ds.length = engines.length → (∀ d ∈ ds, d.origin = origin) →
        (place r.members ds).Filed) → (r.enroll origin engines place).2.1.members.Filed := by
    intro origin engines place hplace
    rcases r.enroll_cases origin engines place with ⟨_, e, next, heq⟩ |
      ⟨_, ds, next, heq, _, hnumbers, horigin⟩
    · rw [heq]
      exact h
    · rw [heq]
      refine hplace ds ?_ horigin
      simpa using congrArg List.length hnumbers
  have hdrop : ∀ name, (r.dropPackage name).2.1.members.Filed := by
    intro name
    unfold dropPackage
    split
    · exact h.erase name
    · exact h
  have hwithdraw : ∀ ids, (r.withdraw ids).2.1.members.Filed := by
    intro ids
    unfold EngineRegistry.withdraw
    split
    · exact h.withdraw ids
    · exact h
  cases q with
  | platform f rank =>
      rw [apply_platform]
      refine henroll _ _ _ fun ds _ horigin => ⟨fun d hd => ?_, h.packages, h.dynamic⟩
      rcases List.mem_append.mp hd with hd | hd
      · exact h.platform d hd
      · exact horigin d hd
  | dynamic f p =>
      rw [apply_dynamic]
      refine henroll _ _ _ fun ds _ horigin => ⟨h.platform, h.packages, fun d hd => ?_⟩
      rcases List.mem_append.mp hd with hd | hd
      · exact h.dynamic d hd
      · exact horigin d hd
  | package name engines =>
      unfold apply
      dsimp only
      split
      · exact h
      · split
        · exact hdrop _
        · next hengines =>
            refine henroll _ _ _ fun ds hlength horigin => h.insert ?_ horigin
            rintro rfl
            simp [eq_comm] at hlength
            simp [hlength] at hengines
  | removePackage name => exact hdrop name
  | unregister id => exact hwithdraw [id]
  | unregisterFactory factory => exact hwithdraw (r.idsOf factory)

theorem Reachable.filed {r : EngineRegistry ℓ} (h : r.Reachable) : r.members.Filed := by
  induction h with
  | empty =>
      exact ⟨by simp [EngineRegistry.empty, Members.empty],
        by simp [EngineRegistry.empty, Members.empty, OrderedMap.empty],
        by simp [EngineRegistry.empty, Members.empty]⟩
  | apply q _ ih => exact filed_apply ih q
  | subscribe listener _ ih => exact ih
  | unsubscribe id _ ih => exact ih

/-! ## What a request comes to -/

/-- What a withdrawal comes to, by which registrations it is about. -/
inductive Withdrawal (r : EngineRegistry ℓ) (p : Descriptor → Bool) :
    Bool × EngineRegistry ℓ × Option (Publication ℓ) → Prop where
  | nothing : (∀ d ∈ r.members.all, p d = false) → Withdrawal r p (false, r, none)
  | some {members : Members} : (∃ d ∈ r.members.all, p d = true) →
      members.all = (r.members.all.filter fun d => !p d) →
      Withdrawal r p (true, (r.publish members).1, some (r.publish members).2)

theorem withdrawal_withdraw (r : EngineRegistry ℓ) (ids : List Nat) :
    Withdrawal r (fun d => ids.contains d.id) (r.withdraw ids) := by
  have hany : ids.any r.members.holds = true ↔ ∃ d ∈ r.members.all, ids.contains d.id = true := by
    unfold Members.holds
    simp only [List.any_eq_true, beq_iff_eq, List.contains_iff_mem]
    constructor
    · rintro ⟨id, hid, d, hd, rfl⟩
      exact ⟨d, hd, hid⟩
    · rintro ⟨d, hd, hid⟩
      exact ⟨d.id, hid, d, hd, rfl⟩
  unfold EngineRegistry.withdraw
  split
  · next h => exact .some (hany.mp h) (Members.all_withdraw r.members ids)
  · next h =>
      refine .nothing fun d hd => ?_
      exact Bool.eq_false_iff.mpr fun hid => h (hany.mpr ⟨d, hd, hid⟩)

theorem withdrawal_dropPackage {r : EngineRegistry ℓ} (h : r.members.Filed) (name : String) :
    Withdrawal r (fun d => decide (d.origin = .package name)) (r.dropPackage name) := by
  unfold dropPackage
  split
  · next hname =>
      obtain ⟨d, hd, horigin⟩ := (h.contains_iff name).mp hname
      exact .some ⟨d, hd, by simp [horigin]⟩ (h.all_erase name)
  · next hname =>
      refine .nothing fun d hd => ?_
      exact decide_eq_false fun horigin => hname ((h.contains_iff name).mpr ⟨d, hd, horigin⟩)

/-- A request that adds nothing is met as far as there is anything to withdraw. -/
theorem Withdrawal.effect {r : EngineRegistry ℓ} {q : Registration} {p : Descriptor → Bool}
    {out : Bool × EngineRegistry ℓ × Option (Publication ℓ)} (h : Withdrawal r p out)
    (hfit : ¬ q.Unfit) (hnone : q.engines = [])
    (hp : ∀ d ∈ r.members.all, p d = q.withdraws d) :
    Registration.Effect r q (q.answer out.1 [], out.2) := by
  cases h with
  | nothing hall => exact .idle hfit hnone fun d hd => (hp d hd).symm.trans (hall d hd)
  | @some members hsome hmembers =>
      obtain ⟨d, hd, hpd⟩ := hsome
      have hadds : q.Adds r.nextId [] := by
        constructor
        · rw [hnone]
          exact .nil
        · rw [hnone]
          rfl
      have hreplaces : q.Replaces r.members members [] := by
        unfold Registration.Replaces
        rw [hmembers, List.append_nil, List.filter_congr fun d hd => by rw [hp d hd]]
      exact .met hfit (.inr ⟨d, hd, (hp d hd).symm.trans hpd⟩) hadds hreplaces

/-- A request that adds engines is met if all of them are fit. -/
theorem enroll_effect {r : EngineRegistry ℓ} {q : Registration}
    {place : Members → List Descriptor → Members}
    (hnamed : ∀ name engines, q = .package name engines → Text.trim name ≠ "")
    (hsome : q.engines ≠ []) (hanswer : ∀ ds, q.answer true ds = .registered (ds.map Descriptor.id))
    (hplace : ∀ ds, q.Replaces r.members (place r.members ds) ds) :
    Registration.Effect r q (r.enroll q.origin q.engines place) := by
  rcases r.enroll_cases q.origin q.engines place with ⟨hunfit, e, next, heq⟩ |
    ⟨hfit, ds, next, heq, hcaptured, hnumbers, _⟩
  · rw [heq]
    exact .refused (.inr hunfit)
  · have hfit' : ¬ q.Unfit := by
      rintro (⟨name, engines, hq, hname⟩ | hunfit)
      · exact hnamed name engines hq hname
      · exact hfit hunfit
    rw [heq, ← hanswer]
    exact .met hfit' (.inl hsome) ⟨hcaptured, hnumbers⟩ (hplace ds)

/-- The numbers of a factory's engines, as published, are those of its registrations. -/
theorem Sound.contains_idsOf {r : EngineRegistry ℓ} (h : r.Sound) (factory : FactoryId)
    {d : Descriptor} (hd : d ∈ r.members.all) :
    (r.idsOf factory).contains d.id = decide (d.factory.id = factory) := by
  have hengines : r.snapshot.engines.Perm r.members.all := by
    rw [h.published]
    exact Snapshot.ranked_perm _
  rw [Bool.eq_iff_iff, List.contains_iff_mem, decide_eq_true_iff]
  unfold idsOf
  constructor
  · intro hid
    obtain ⟨e, he, hid⟩ := List.mem_map.mp hid
    obtain ⟨he, hfactory⟩ := List.mem_filter.mp he
    rw [← h.distinct.eq_of_id (hengines.mem_iff.mp he) hd hid]
    exact beq_iff_eq.mp hfactory
  · intro hfactory
    refine List.mem_map.mpr ⟨d, List.mem_filter.mpr ⟨hengines.mem_iff.mpr hd, ?_⟩, rfl⟩
    exact beq_iff_eq.mpr hfactory

/-- **The step lemma: what each request comes to.** -/
theorem apply_effect {r : EngineRegistry ℓ} (hs : r.Sound) (hf : r.members.Filed)
    (q : Registration) : Registration.Effect r q (r.apply q) := by
  cases q with
  | platform f rank =>
      rw [apply_platform]
      refine enroll_effect (q := .platform f rank) (fun _ _ h => nomatch h) (List.cons_ne_nil _ _)
        (fun _ => rfl) fun ds => ?_
      unfold Registration.Replaces Members.all
      simp only [Registration.withdraws, Bool.not_false, List.filter_true, List.append_assoc]
      refine List.Perm.append_left _ (List.perm_append_comm.trans ?_)
      rw [List.append_assoc]
  | dynamic f p =>
      rw [apply_dynamic]
      refine enroll_effect (q := .dynamic f p) (fun _ _ h => nomatch h) (List.cons_ne_nil _ _)
        (fun _ => rfl) fun ds => ?_
      unfold Registration.Replaces Members.all
      simp only [Registration.withdraws, Bool.not_false, List.filter_true, List.append_assoc]
      exact List.Perm.refl _
  | package name engines =>
      unfold apply
      dsimp only
      split
      · next hname => exact Registration.Effect.refused (.inl ⟨name, engines, rfl, hname⟩)
      · next hname =>
          have hnamed : ∀ name' engines', Registration.package name engines =
              .package name' engines' → Text.trim name' ≠ "" := by
            intro name' engines' heq
            cases heq
            exact hname
          split
          · next hempty =>
              cases List.isEmpty_iff.mp hempty
              exact (withdrawal_dropPackage hf (Text.trim name)).effect (q := .package name [])
                (Registration.not_unfit hnamed rfl) rfl fun _ _ => rfl
          · next hempty =>
              refine enroll_effect (q := .package name engines) hnamed ?_ (fun _ => rfl)
                fun ds => ?_
              · intro hnil
                exact hempty (List.isEmpty_iff.mpr (List.map_eq_nil_iff.mp hnil))
              · have hkept := hf.all_erase (Text.trim name)
                have hperm := Members.all_insert_perm r.members (Text.trim name) ds
                rw [hkept] at hperm
                exact hperm
  | removePackage name =>
      exact (withdrawal_dropPackage hf name).effect (q := .removePackage name)
        (Registration.not_unfit (fun _ _ h => nomatch h) rfl) rfl fun _ _ => rfl
  | unregister id =>
      refine (withdrawal_withdraw r [id]).effect (q := .unregister id)
        (Registration.not_unfit (fun _ _ h => nomatch h) rfl) rfl fun d _ => ?_
      simp [Registration.withdraws]
  | unregisterFactory factory =>
      exact (withdrawal_withdraw r (r.idsOf factory)).effect (q := .unregisterFactory factory)
        (Registration.not_unfit (fun _ _ h => nomatch h) rfl) rfl
        fun d hd => hs.contains_idsOf factory hd

theorem Reachable.effect {r : EngineRegistry ℓ} (h : r.Reachable) (q : Registration) :
    q.Effect r (r.apply q) :=
  apply_effect h.sound h.filed q

/-- **Every member was added by some request.** -/
theorem Reachable.exists_adds {r : EngineRegistry ℓ} (h : r.Reachable) {d : Descriptor}
    (hd : d ∈ r.members.all) :
    ∃ q next added, Registration.Adds q next added ∧ d ∈ added := by
  induction h with
  | empty => simp [EngineRegistry.empty, Members.empty, Members.all, OrderedMap.empty] at hd
  | @apply r q hr ih =>
      have heffect := hr.effect q
      generalize r.apply q = out at heffect hd
      cases heffect with
      | refused _ => exact ih hd
      | idle _ _ _ => exact ih hd
      | met _ _ hadds hreplaces =>
          rcases List.mem_append.mp (hreplaces.mem_iff.mp hd) with hd | hd
          · exact ih (List.mem_of_mem_filter hd)
          · exact ⟨_, _, _, hadds, hd⟩
  | subscribe listener _ ih => exact ih hd
  | unsubscribe id _ ih => exact ih hd

end EngineRegistry

/-! ## Whole or not at all -/

/-- Whether an answer says that nothing was done. -/
def Reply.Fails : Reply → Prop
  | .registered _ => False
  | .refused _ => True
  | .withdrawn any => any = false

namespace Registration

variable {ℓ : Type}

/-- A request has no effect if its answer says so, or if it declares no engines for a package that
has none. -/
def Ineffective (q : Registration) (r : EngineRegistry ℓ) (reply : Reply) : Prop :=
  reply.Fails ∨
    ∃ name, q = .package name [] ∧ ∀ d ∈ r.members.all, d.origin ≠ .package (Text.trim name)

/-- Everything is as it was, and nobody is told. -/
structure Unnoticed (r : EngineRegistry ℓ) (out : EngineRegistry ℓ × Option (Publication ℓ)) :
    Prop where
  members : out.1.members = r.members
  snapshot : out.1.snapshot = r.snapshot
  listeners : out.1.listeners = r.listeners
  silent : out.2 = none

/-- All that a request asks for is done and published, once to each listener, in the order in which
they subscribed. -/
structure Published (r : EngineRegistry ℓ) (q : Registration) (reply : Reply)
    (out : EngineRegistry ℓ × Option (Publication ℓ)) : Prop where
  generation : out.1.snapshot.generation = r.snapshot.generation + 1
  replaced : ∃ added, q.Adds r.nextId added ∧ reply = q.answer true added ∧
    q.Replaces r.members out.1.members added ∧
    out.1.snapshot.engines =
      Snapshot.ranked ((r.snapshot.engines.filter fun d => !q.withdraws d) ++ added)
  listeners : out.1.listeners = r.listeners
  told : out.2 = some ⟨out.1.snapshot, r.listeners.map Prod.snd⟩

/-- An effect is that the request is unfit and refused, or does nothing, or does everything. -/
theorem Effect.unfit_iff {r : EngineRegistry ℓ} {q : Registration}
    {out : Reply × EngineRegistry ℓ × Option (Publication ℓ)} (h : q.Effect r out) :
    q.Unfit ↔ ∃ e, out.1 = .refused e := by
  have hanswer : ∀ any added, ¬ ∃ e, q.answer any added = .refused e := by
    rintro any added ⟨e, he⟩
    cases q <;> cases he
  cases h with
  | refused hunfit => exact ⟨fun _ => ⟨_, rfl⟩, fun _ => hunfit⟩
  | idle hfit _ _ => exact ⟨fun h => absurd h hfit, fun h => absurd h (hanswer _ _)⟩
  | met hfit _ _ _ => exact ⟨fun h => absurd h hfit, fun h => absurd h (hanswer _ _)⟩

/-- A request that cannot be met leaves the members alone. -/
theorem Effect.members_of_unfit {r : EngineRegistry ℓ} {q : Registration}
    {out : Reply × EngineRegistry ℓ × Option (Publication ℓ)} (h : q.Effect r out)
    (hunfit : q.Unfit) : out.2.1.members = r.members := by
  cases h with
  | refused _ => rfl
  | idle _ _ _ => rfl
  | met hfit _ _ _ => exact absurd hunfit hfit

/-- Any other leaves what it does not withdraw, and what it declares, be that nothing. -/
theorem Effect.replaces {r : EngineRegistry ℓ} {q : Registration}
    {out : Reply × EngineRegistry ℓ × Option (Publication ℓ)} (h : q.Effect r out)
    (hfit : ¬ q.Unfit) :
    ∃ added, q.Adds r.nextId added ∧ q.Replaces r.members out.2.1.members added := by
  cases h with
  | refused hunfit => exact absurd hunfit hfit
  | idle _ hnone hkept =>
      refine ⟨[], ⟨by rw [hnone]; exact .nil, by rw [hnone]; rfl⟩, ?_⟩
      have hall : (r.members.all.filter fun d => !q.withdraws d) = r.members.all :=
        List.filter_eq_self.mpr fun d hd => by rw [hkept d hd]; rfl
      unfold Replaces
      rw [hall, List.append_nil]
  | met _ _ hadds hreplaces => exact ⟨_, hadds, hreplaces⟩

theorem Effect.withdrawn_iff {r : EngineRegistry ℓ} {q : Registration}
    {out : Reply × EngineRegistry ℓ × Option (Publication ℓ)} (h : q.Effect r out) {any : Bool}
    (hany : out.1 = .withdrawn any) :
    any = true ↔ ∃ d ∈ r.members.all, q.withdraws d = true := by
  cases h with
  | refused _ => cases hany
  | idle _ _ hnone =>
      have hfalse : any = false := by
        cases q <;> cases hany <;> rfl
      rw [hfalse]
      constructor
      · intro h
        cases h
      · rintro ⟨d, hd, hd'⟩
        rw [hnone d hd] at hd'
        cases hd'
  | met _ hsome _ _ =>
      have htrue : any = true ∧ q.engines = [] := by
        cases q <;> cases hany <;> exact ⟨rfl, rfl⟩
      rcases hsome with hsome | hsome
      · exact absurd htrue.2 hsome
      · exact ⟨fun _ => hsome, fun _ => htrue.1⟩

theorem Effect.unnoticed {r : EngineRegistry ℓ} {q : Registration}
    {out : Reply × EngineRegistry ℓ × Option (Publication ℓ)} (h : q.Effect r out)
    (hidle : q.Ineffective r out.1) : Unnoticed r out.2 := by
  cases h with
  | refused _ => exact ⟨rfl, rfl, rfl, rfl⟩
  | idle _ _ _ => exact ⟨rfl, rfl, rfl, rfl⟩
  | met _ hsome _ _ =>
      -- A request that is met has done something, so neither reason for idleness applies.
      exfalso
      rcases hidle with hfails | ⟨name, rfl, hunknown⟩
      · cases q <;> cases hfails
      · rcases hsome with hsome | ⟨d, hd, hd'⟩
        · exact hsome rfl
        · exact hunknown d hd (of_decide_eq_true hd')

theorem Effect.published {r : EngineRegistry ℓ} (hs : r.Sound) {q : Registration}
    {out : Reply × EngineRegistry ℓ × Option (Publication ℓ)} (h : q.Effect r out)
    (hdistinct : DistinctIds out.2.1.members.all) (hidle : ¬ q.Ineffective r out.1) :
    q.Published r out.1 out.2 := by
  cases h with
  | refused _ => exact absurd (.inl trivial) hidle
  | idle _ hnone hall =>
      exfalso
      cases q with
      | platform f rank => cases hnone
      | dynamic f p => cases hnone
      | package name engines =>
          cases List.map_eq_nil_iff.mp hnone
          exact hidle (.inr ⟨name, rfl, fun d hd => of_decide_eq_false (hall d hd)⟩)
      | removePackage name => exact hidle (.inl rfl)
      | unregister id => exact hidle (.inl rfl)
      | unregisterFactory factory => exact hidle (.inl rfl)
  | @met added members next _ _ hadds hreplaces =>
      refine ⟨rfl, ⟨added, hadds, rfl, hreplaces, ?_⟩, rfl, rfl⟩
      have hengines : r.snapshot.engines.Perm r.members.all := by
        rw [hs.published]
        exact Snapshot.ranked_perm _
      have hperm : members.all.Perm
          ((r.snapshot.engines.filter fun d => !q.withdraws d) ++ added) :=
        hreplaces.trans ((hengines.symm.filter _).append_right added)
      exact Snapshot.ranked_eq_of_perm hdistinct hperm

end Registration

namespace EngineRegistry

variable {ℓ : Type}

/-- **A request is met as a whole or not at all, and each publication is told once to each
listener.** It is refused exactly if it is unfit, and a withdrawal says whether it found any. -/
theorem apply_atomic {r : EngineRegistry ℓ} (h : r.Reachable) (q : Registration) :
    (r.listeners.map Prod.fst).Pairwise (· < ·) ∧
      ((∃ e, (r.apply q).1 = .refused e) ↔ q.Unfit) ∧
      (∀ any, (r.apply q).1 = .withdrawn any →
        (any = true ↔ ∃ d ∈ r.members.all, q.withdraws d = true)) ∧
      (q.Ineffective r (r.apply q).1 → Registration.Unnoticed r (r.apply q).2) ∧
      (¬ q.Ineffective r (r.apply q).1 → q.Published r (r.apply q).1 (r.apply q).2) := by
  have heffect := h.effect q
  have hdistinct := (h.sound.apply q).distinct
  refine ⟨h.enlisted.increasing, heffect.unfit_iff.symm, ?_, ?_, ?_⟩
  · intro any hany
    exact heffect.withdrawn_iff hany
  · intro hidle
    exact heffect.unnoticed hidle
  · intro hidle
    exact heffect.published h.sound hdistinct hidle

/-- A registry with two listeners and a package of two engines. -/
def packaged : EngineRegistry String :=
  (((empty.subscribe "first").2.subscribe "second").2.apply
    (.package "p" [(Template.factory, 0), (Template.factory, 3)])).2.1

theorem packaged_reachable : packaged.Reachable :=
  .apply _ (.subscribe _ (.subscribe _ .empty))

/-- The package is replaced by one engine, whatever blanks are around its name. -/
theorem apply_atomic_package :
    packaged.snapshot.engines.map Descriptor.id = [2, 1] ∧
      (packaged.apply (.package " p " [(Template.factory, 7)])).2.1.snapshot.engines.map
        Descriptor.id = [3] ∧
      ¬ (Registration.package " p " [(Template.factory, 7)]).Ineffective packaged
        (packaged.apply (.package " p " [(Template.factory, 7)])).1 ∧
      (packaged.apply (.package " p " [(Template.factory, 7)])).2.2 =
        some ⟨(packaged.apply (.package " p " [(Template.factory, 7)])).2.1.snapshot,
          ["first", "second"]⟩ := by
  have heffective : ¬ (Registration.package " p " [(Template.factory, 7)]).Ineffective packaged
      (packaged.apply (.package " p " [(Template.factory, 7)])).1 := by
    have hreply : (packaged.apply (.package " p " [(Template.factory, 7)])).1 =
        .registered [3] := by cbv
    rw [hreply]
    rintro (h | ⟨name, h, _⟩)
    · exact h
    · cases h
  have hpublished := (apply_atomic packaged_reachable
    (.package " p " [(Template.factory, 7)])).2.2.2.2 heffective
  exact ⟨by cbv, by cbv, heffective, hpublished.told⟩

end EngineRegistry

end ScriptHost
