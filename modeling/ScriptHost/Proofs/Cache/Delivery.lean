import ScriptHost.Proofs.Cache.Bounded
import ScriptHost.Proofs.Cache.Subscriptions

/-! # Engines told of out of order

A registry tells its listeners of every set of engines that it publishes, but what it tells may be
late, and may come more than once. A cache goes by the generations: told of a newer set than the one
where it stands it forgets its scripts and stands there (`Installation.Stands`), and told of any
other it does nothing. So in the end it stands at the newest set that it was ever told of, whatever
the order. -/

namespace ScriptHost

/-- What is to be watched for a set of engines, with additional extensions. -/
def Snapshot.watchSet (s : Snapshot) (additional : NameSet) : WatchSet :=
  ⟨s.compilableExtensions.union additional⟩

/-- A source gives the next number to each subscription. -/
def ChangeSource.Counts (s : ChangeSource) : Prop :=
  ∀ x ∈ s.subscriptions, x.1 < s.next

/-! ## Notices -/

/-- What comes to an active cache: it is told of engines, or it is used. -/
inductive Notice where
  | engines (s : Snapshot)
  | use (u : ScriptCache.Use)

namespace Notice

def call : Notice → CacheCall
  | .engines s => .engines s
  | .use u => .use u

def engines? : Notice → Option Snapshot
  | .engines s => some s
  | .use _ => none

/-- The sets of engines that a cache is told of, in the order in which it is. -/
def told (notices : List Notice) : List Snapshot :=
  notices.filterMap engines?

end Notice

namespace Installation

/-- The cache after it has got some notices. -/
def noticing (i : Installation) (notices : List Notice) : Installation :=
  i.calling (notices.map Notice.call)

/-- The number of the cache's own subscription, if it has one. -/
def subscription? (i : Installation) : Option Nat :=
  match i.cache.phase with
  | .active a => a.subscription
  | _ => none

/-- The subscriptions of others at the source. -/
def others (i : Installation) : List (Nat × List String) :=
  match i.source with
  | some s => (s.unsubscribe? i.subscription?).subscriptions
  | none => []

/-! ## Where a cache stands -/

/-- An active cache stands at a set of engines: it knows its generation and watches what these
engines compile, and beside the subscriptions of others the source has the one for that. -/
structure Stands (i : Installation) (additional : NameSet) (others : List (Nat × List String))
    (s : Snapshot) : Prop where
  additions : i.cache.additional = additional
  active : ∃ a, i.cache.phase = .active a ∧ a.generation = s.generation ∧
    a.watch = s.watchSet additional ∧ WatchesBeside others i.source a.subscription a.watch

variable {i : Installation} {additional : NameSet} {others : List (Nat × List String)}
  {s t : Snapshot}

/-- The patterns that the cache reports are those for the engines where it stands. -/
theorem Stands.watchPatterns (h : i.Stands additional others s) :
    i.cache.watchPatterns = (s.watchSet additional).patterns := by
  obtain ⟨a, hphase, -, hwatch, -⟩ := h.active
  unfold ScriptCache.watchPatterns ScriptCache.watch?
  rw [hphase, ← hwatch]

/-- An activation takes the cache to the engines that the registry has then. -/
theorem stands_activate (hlive : i.cache.phase ≠ .disposed)
    (hsource : ∀ s, i.source = some s → s.Counts) (index : Nat) :
    (i.activate index).Stands i.cache.additional i.others (i.registries index).snapshot := by
  have hwatches : ∀ w, WatchesBeside i.others (rewatch i.source i.subscription? w).2
      (rewatch i.source i.subscription? w).1 w := by
    refine watchesBeside_rewatch fun s hs => ?_
    have hothers : i.others = (s.unsubscribe? i.subscription?).subscriptions := by
      unfold Installation.others
      rw [hs]
    refine ⟨hothers.symm, fun x hx => hsource s hs x ?_⟩
    rw [hothers] at hx
    cases hnumber : i.subscription? with
    | none => rwa [hnumber] at hx
    | some id =>
        rw [hnumber] at hx
        exact (List.mem_filter.mp hx).1
  unfold subscription? at hwatches
  unfold activate
  cases hphase : i.cache.phase with
  | unconfigured =>
      simp only [cache_setRegistry, hphase] at hwatches ⊢
      exact ⟨rfl, _, rfl, rfl, rfl, hwatches _⟩
  | active a =>
      simp only [cache_setRegistry, hphase] at hwatches ⊢
      exact ⟨rfl, _, rfl, rfl, rfl, hwatches _⟩
  | disposed => exact absurd hphase hlive

theorem Stands.use (h : i.Stands additional others s) (u : ScriptCache.Use) :
    (i.call (.use u)).Stands additional others s := by
  obtain ⟨hphase, hadditional⟩ := i.cache.phase_use u
  obtain ⟨a, ha, hactive⟩ := h.active
  exact ⟨hadditional.trans h.additions, a, hphase.trans ha, hactive⟩

/-- **Told of engines**, a cache goes there and forgets its scripts if they are newer, and does
nothing if not. -/
theorem Stands.engines (h : i.Stands additional others t) (s : Snapshot) :
    (t.generation < s.generation ∧ (i.onEngines s).Stands additional others s ∧
        (i.onEngines s).cache.entries = .empty) ∨
      (s.generation ≤ t.generation ∧ i.onEngines s = i) := by
  obtain ⟨a, hphase, hgeneration, -, hwatches⟩ := h.active
  by_cases hlt : t.generation < s.generation
  · left
    obtain ⟨subscription, source, hwatches', heq⟩ :=
      onEngines_newer hphase (hgeneration ▸ hlt) hwatches
    have hwatch : i.cache.extensionsFor s = s.compilableExtensions.union additional := by
      unfold ScriptCache.extensionsFor
      rw [h.additions]
    rw [hwatch] at heq hwatches'
    rw [heq]
    exact ⟨hlt, ⟨h.additions, _, rfl, rfl, rfl, hwatches'⟩, rfl⟩
  · right
    have hle : s.generation ≤ t.generation := Nat.le_of_not_lt hlt
    refine ⟨hle, ?_⟩
    unfold onEngines
    rw [hphase]
    exact if_pos (hgeneration ▸ hle)

/-- **Through any notices** a cache goes to the newest engines that it is told of, or stays where it
stood. -/
theorem Stands.noticing (h : i.Stands additional others t) (notices : List Notice) :
    ∃ newest ∈ t :: Notice.told notices,
      (∀ s ∈ t :: Notice.told notices, s.generation ≤ newest.generation) ∧
        (i.noticing notices).Stands additional others newest := by
  induction notices generalizing i t with
  | nil =>
      refine ⟨t, List.mem_cons_self, fun s hs => ?_, h⟩
      rw [List.mem_singleton.mp hs]
  | cons n rest ih =>
      cases n with
      | use u => exact ih (h.use u)
      | engines s =>
          have htold : Notice.told (.engines s :: rest) = s :: Notice.told rest := rfl
          rw [htold]
          rcases h.engines s with ⟨hlt, hstands, -⟩ | ⟨hle, hsame⟩
          · obtain ⟨newest, hmem, hmax, hfinal⟩ := ih hstands
            refine ⟨newest, List.mem_cons_of_mem _ hmem, fun u hu => ?_, hfinal⟩
            rcases List.mem_cons.mp hu with rfl | hu
            · exact Nat.le_trans (Nat.le_of_lt hlt) (hmax s List.mem_cons_self)
            · exact hmax u hu
          · obtain ⟨newest, hmem, hmax, hfinal⟩ := ih h
            have hfinal' : (i.noticing (.engines s :: rest)).Stands additional others newest := by
              show ((i.onEngines s).noticing rest).Stands additional others newest
              rwa [hsame]
            refine ⟨newest, ?_, fun u hu => ?_, hfinal'⟩
            · rcases List.mem_cons.mp hmem with rfl | hmem
              · exact List.mem_cons_self
              · exact List.mem_cons_of_mem _ (List.mem_cons_of_mem _ hmem)
            · rcases List.mem_cons.mp hu with rfl | hu
              · exact hmax u List.mem_cons_self
              · rcases List.mem_cons.mp hu with rfl | hu
                · exact Nat.le_trans hle (hmax t List.mem_cons_self)
                · exact hmax u (List.mem_cons_of_mem _ hu)

/-! ## The order does not matter -/

/-- **The order in which a cache is told of engines does not matter.** From its activation on a
registry it stands at the newest set of that registry's engines that it has been told of, counting
the set at the activation. It is emptied by each set that is newer than all before, and by no
other, which leaves everything as it is. -/
theorem newest_engines_count (index : Nat) (past future : List (EngineRegistry.Act Subscriber))
    (hlive : i.cache.phase ≠ .disposed) (hsource : ∀ s, i.source = some s → s.Counts)
    (hpast : i.registries index = EngineRegistry.empty.through past) (notices : List Notice)
    (htold : ∀ s ∈ Notice.told notices, s ∈ EngineRegistry.empty.shown (past ++ future)) :
    (∃ newest ∈ (i.registries index).snapshot :: Notice.told notices,
        (∀ s ∈ (i.registries index).snapshot :: Notice.told notices,
          s = newest ∨ s.generation < newest.generation) ∧
        ((i.activate index).noticing notices).Stands i.cache.additional i.others newest ∧
        ((i.activate index).noticing notices).cache.watchPatterns =
          (newest.watchSet i.cache.additional).patterns) ∧
      ∀ before s after, notices = before ++ .engines s :: after →
        ((∀ t ∈ (i.registries index).snapshot :: Notice.told before,
            t.generation < s.generation) →
          (((i.activate index).noticing before).onEngines s).cache.entries = .empty) ∧
        ((∃ t ∈ (i.registries index).snapshot :: Notice.told before,
            s.generation ≤ t.generation) →
          ((i.activate index).noticing before).onEngines s =
            (i.activate index).noticing before) := by
  have hfirst := stands_activate hlive hsource index
  have hshown : ∀ s ∈ (i.registries index).snapshot :: Notice.told notices,
      s ∈ EngineRegistry.empty.shown (past ++ future) := by
    intro s hs
    rcases List.mem_cons.mp hs with rfl | hs
    · rw [hpast]
      exact EngineRegistry.snapshot_mem_shown _ past future
    · exact htold s hs
  refine ⟨?_, ?_⟩
  · obtain ⟨newest, hmem, hmax, hstands⟩ := hfirst.noticing notices
    refine ⟨newest, hmem, fun s hs => ?_, hstands, hstands.watchPatterns⟩
    rcases Nat.lt_or_eq_of_le (hmax s hs) with hlt | heq
    · exact .inr hlt
    · exact .inl (EngineRegistry.eq_of_generation (hshown s hs) (hshown newest hmem) heq)
  · intro before s after hnotices
    obtain ⟨newest, hmem, hmax, hstands⟩ := hfirst.noticing before
    rcases hstands.engines s with ⟨hlt, -, hempty⟩ | ⟨hle, hsame⟩
    · refine ⟨fun _ => hempty, ?_⟩
      rintro ⟨t, ht, hst⟩
      exact absurd (Nat.lt_of_lt_of_le hlt hst) (Nat.not_lt.mpr (hmax t ht))
    · refine ⟨fun hnewer => ?_, fun _ => hsame⟩
      exact absurd (hnewer newest hmem) (Nat.not_lt.mpr hle)

end Installation

/-! ## Two sets in the wrong order -/

namespace Sample

/-- A registry gets an engine, and then another one. -/
def arrivals : List (EngineRegistry.Act Subscriber) :=
  [.apply (.platform Template.factory 0),
    .apply (.dynamic Template.factory { extensions := some ["x"] })]

/-- The engines after the first of these. -/
def earlier : Snapshot :=
  (EngineRegistry.empty.through (arrivals.take 1)).snapshot

def later : Snapshot :=
  (EngineRegistry.empty.through arrivals).snapshot

/-- A cache whose source has a subscription of somebody else. -/
def shared : Installation :=
  { vacant with source := some ⟨[(4, ["**/*.z"])], 5⟩ }

/-- The cache is told of the later engines first, between two scripts that are put. -/
def swapped : List Notice :=
  [.use (.put (kept "/a.x")), .engines later, .use (.put (kept "/b.x")), .engines earlier]

end Sample

namespace Installation

open Sample

/-- The cache stands at the later engines, and has lost the first script only. -/
theorem newest_engines_count_swapped :
    ((shared.activate 0).noticing swapped).Stands shared.cache.additional [(4, ["**/*.z"])] later ∧
      ((shared.activate 0).noticing swapped).cache.watchPatterns =
        ["**/*.tmpl", "**/*.tpl", "**/*.x", "**/*.y"] ∧
      ((shared.activate 0).noticing swapped).cache.paths = ["/b.x"] := by
  have hshown : ∀ s ∈ Notice.told swapped,
      s ∈ EngineRegistry.empty.shown ([] ++ arrivals) := by
    intro s hs
    rcases List.mem_cons.mp hs with rfl | hs
    · exact List.mem_cons_of_mem _ (List.mem_cons_of_mem _ List.mem_cons_self)
    · cases List.mem_singleton.mp hs
      exact List.mem_cons_of_mem _ List.mem_cons_self
  have hcounts : ∀ s, shared.source = some s → s.Counts := by
    rintro s ⟨⟩ x hx
    cases List.mem_singleton.mp hx
    decide
  obtain ⟨⟨newest, hmem, hmax, hstands, -⟩, -⟩ :=
    newest_engines_count 0 [] arrivals (by rintro ⟨⟩) hcounts rfl swapped hshown
  have hnewest : newest = later := by
    rcases hmax later (by simp [swapped, Notice.told, Notice.engines?]) with heq | hlt
    · exact heq.symm
    · -- None of the three sets is newer.
      have hall : ∀ s ∈ (shared.registries 0).snapshot :: Notice.told swapped,
          s.generation ≤ later.generation := by decide
      exact absurd hlt (Nat.not_lt.mpr (hall newest hmem))
  rw [← hnewest]
  exact ⟨hstands, by cbv, by cbv⟩

end Installation

end ScriptHost
