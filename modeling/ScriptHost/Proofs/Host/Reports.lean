import Mathlib
import ScriptHost.Proofs.Glob.Suffix
import ScriptHost.Proofs.Host.Serving

/-! # What reports of changes reach

A cached script was compiled by the engine that was chosen for its path, and the cache watches the
extensions that the engines which compile claim. Where the engine was chosen for the extension of the
path, that extension is watched, and a report that the script has changed drops it. Where it was
chosen by a language hint alone, nobody claims the extension, and unless the path is selected for
another reason the report passes by: the next execution runs the old form without a look at the
source. `Host.reported` says exactly which reports drop a script, in every host that comes about. -/

namespace ScriptHost

/-! ## Choosing -/

namespace Snapshot

theorem mem_compilableExtensions {s : Snapshot} {e : String} :
    e ∈ s.compilableExtensions ↔
      ∃ d ∈ s.engines, d.supportsCompilation = true ∧ e ∈ d.extensions := by
  unfold compilableExtensions
  rw [NameSet.mem_ofList, List.mem_flatMap]
  constructor
  · rintro ⟨d, hd, he⟩
    obtain ⟨hmem, hcompiles⟩ := List.mem_filter.mp hd
    exact ⟨d, hmem, hcompiles, he⟩
  · rintro ⟨d, hmem, hcompiles, he⟩
    exact ⟨d, List.mem_filter.mpr ⟨hmem, hcompiles⟩, he⟩

end Snapshot

namespace Host

/-- A script as executions put it into the cache: compiled by an engine that can be chosen for its
path. -/
def IsChosen (s : Snapshot) (x : CachedScript) : Prop :=
  ∃ (hint : String → Option String) (d : Descriptor),
    s.select x.path ((Path.extension? x.path).bind hint) = some d ∧
    d.supportsCompilation = true ∧ x.program.compiledBy = d.id

theorem isChosen_of_makes {h : Host} {x : CachedScript} {demand : Demand}
    (hx : h.Makes x demand) : IsChosen h.registry.snapshot x := by
  obtain ⟨d, hd, hmade⟩ := hx
  cases demand with
  | execute around script bindings o =>
      obtain ⟨hpath, hengine, _⟩ := hd
      obtain ⟨_, ⟨_, hcompiles, _⟩, hprogram⟩ := Descriptor.runsCompiled_of_compiled? hmade
      rw [engineFor_eq_select, hpath] at hengine
      exact ⟨hintsOf around script o, d, hengine, hcompiles, compiledBy?_id hprogram⟩
  | _ => exact hd.elim

/-! ## Executing again -/

/-- Executions of a path by way of its compiled form open the source, and compile it if it can be
opened. -/
def Recompiles (h : Host) (path : String) : Prop :=
  ∀ around script bindings o d, h.Runs path d (.execute around script bindings o) →
    (h.execute around script bindings o).2.world.readings =
      h.world.readings ++ d.readingsOf script (around.resource script).opening

/-- Executions of a path by way of its compiled form do not look at the source. -/
def Reuses (h : Host) (path : String) : Prop :=
  ∀ demand d, h.Runs path d demand → (h.serve demand).2.world.readings = h.world.readings

theorem recompiles_of_none {h : Host} {path : String} (hx : h.site.cache.get? path = none) :
    h.Recompiles path := by
  rintro around script bindings o d ⟨hpath, hd, ⟨compiler, hcompiled⟩, scope, w, hscope⟩
  rw [readings_execute hd hcompiled hscope, hpath, hx]

theorem reuses_of_some {h : Host} {path : String} {x : CachedScript}
    (hx : h.site.cache.get? path = some x) : h.Reuses path := by
  intro demand d hruns
  cases demand with
  | execute around script bindings o =>
      obtain ⟨hpath, hd, ⟨compiler, hcompiled⟩, scope, w, hscope⟩ := hruns
      show (h.execute around script bindings o).2.world.readings = _
      rw [readings_execute hd hcompiled hscope, hpath, hx, List.append_nil]
  | _ => exact hruns.elim

/-! ## Reports -/

/-- Whether a batch reports the removal of a path or of something above it. -/
def RemovesAt (batch : List ChangeEvent) (path : String) : Prop :=
  ∃ q, .removed q ∈ batch ∧ (path = q ∨ isBelow q path = true)

/-- A batch that reports a change of a path hits it if the path is watched, or by a removal. -/
theorem any_hits_iff {w : WatchSet} {batch : List ChangeEvent} {path : String}
    (h : .changed path ∈ batch) :
    (batch.any fun e => e.hits (some w) path) = true ↔
      w.selects path = true ∨ RemovesAt batch path := by
  rw [List.any_eq_true]
  constructor
  · rintro ⟨e, he, hhits⟩
    cases e with
    | changed q =>
        simp only [ChangeEvent.hits, Bool.and_eq_true, decide_eq_true_eq, Option.all_some] at hhits
        exact .inl (hhits.1 ▸ hhits.2)
    | removed q =>
        simp only [ChangeEvent.hits, Bool.or_eq_true, decide_eq_true_eq] at hhits
        exact .inr ⟨q, he, hhits⟩
  · rintro (hselects | ⟨q, hq, hbelow⟩)
    · exact ⟨_, h, by simp [ChangeEvent.hits, hselects]⟩
    · exact ⟨_, hq, by simpa [ChangeEvent.hits] using hbelow⟩

theorem patterns_ne_nil {w : WatchSet} {path : String} (h : w.selects path = true) :
    w.patterns ≠ [] := by
  intro hnil
  simp [WatchSet.selects, hnil] at h

/-- What an active cache watches: what the engines that compile claim, and what it was told of. -/
theorem mem_watch {h : Host} {a : Activity} (hfollows : h.site.Follows home a) (e : String) :
    e ∈ a.watch.extensions ↔
      (∃ d ∈ h.registry.snapshot.engines, d.supportsCompilation = true ∧ e ∈ d.extensions) ∨
        e ∈ h.site.cache.additional := by
  rw [hfollows.watch]
  unfold ScriptCache.extensionsFor
  rw [NameSet.mem_union, Snapshot.mem_compilableExtensions]
  rfl

/-- What reports do to a cached script of an active cache. -/
structure Reported (h : Host) (a : Activity) (x : CachedScript) : Prop where
  /-- The cache watches the extensions of the engines that compile, and those it was told of. -/
  watched : ∀ e, e ∈ a.watch.extensions ↔
    (∃ d ∈ h.registry.snapshot.engines, d.supportsCompilation = true ∧ e ∈ d.extensions) ∨
      e ∈ h.site.cache.additional
  /-- The script was compiled by an engine that claims the extension of its path, which is watched
  then, or that was chosen by a hint alone, and then no engine claims it. -/
  chosen : ∃ d e, d ∈ h.registry.snapshot.engines ∧ x.program.compiledBy = d.id ∧
    Path.extension? x.path = some e ∧
    ((Text.lower e ∈ d.extensions ∧ Text.lower e ∈ a.watch.extensions) ∨
      ∀ d' ∈ h.registry.snapshot.engines, Text.lower e ∉ d'.extensions)
  /-- A path is selected for a watched extension of its own, unless that has glob characters. -/
  selected : ∀ e, Path.extension? x.path = some e → Text.lower e ∈ a.watch.extensions →
    Glob.IsPlain (Text.lower e) → a.watch.isShallow = true → a.watch.selects x.path = true
  /-- If no watched extension has any, the paths are selected that end in a watched extension. -/
  plain : (∀ e ∈ a.watch.extensions, Glob.IsPlain e) →
    (a.watch.selects x.path = true ↔ ∃ e ∈ a.watch.extensions, Glob.EndsIn x.path e)
  /-- A batch with a change of the script drops it exactly if its path is selected, or if the batch
  reports a removal that concerns it. -/
  dropped : ∀ batch, .changed x.path ∈ batch →
    ((h.site.cache.invalidate batch).get? x.path = none ↔
      a.watch.selects x.path = true ∨ RemovesAt batch x.path)
  /-- The same by way of the source of changes, which reports nothing if nothing is watched. -/
  emitted : h.site.source.isSome = true → ∀ batch, .changed x.path ∈ batch →
    ((h.emit batch).site.cache.get? x.path = none ↔
      a.watch.selects x.path = true ∨ (a.watch.patterns ≠ [] ∧ RemovesAt batch x.path))
  /-- Where it is dropped the next execution compiles the source anew. -/
  recompiled : ∀ batch, ∀ demand ∈ [Demand.invalidate batch, .report batch],
    (h.serve demand).2.site.cache.get? x.path = none → (h.serve demand).2.Recompiles x.path
  /-- Where it is not the next execution runs the old form without a look at the source. -/
  reused : ∀ batch, ∀ demand ∈ [Demand.invalidate batch, .report batch],
    (h.serve demand).2.site.cache.get? x.path ≠ none → (h.serve demand).2.Reuses x.path

/-- The extension of a cached script is watched, unless nobody claims it. -/
theorem exists_engine {h : Host} {a : Activity} (hfollows : h.site.Follows home a)
    {x : CachedScript} (hx : IsChosen h.registry.snapshot x) :
    ∃ d e, d ∈ h.registry.snapshot.engines ∧ x.program.compiledBy = d.id ∧
      Path.extension? x.path = some e ∧
      ((Text.lower e ∈ d.extensions ∧ Text.lower e ∈ a.watch.extensions) ∨
        ∀ d' ∈ h.registry.snapshot.engines, Text.lower e ∉ d'.extensions) := by
  obtain ⟨hint, d, hselect, hcompiles, hby⟩ := hx
  obtain ⟨hmem, ⟨e, he, hclaims⟩ | ⟨hhinted, hnone⟩⟩ := Snapshot.select_some hselect
  -- An engine that claims the extension compiles, so the extension is watched.
  · have hwatched : Text.lower e ∈ a.watch.extensions :=
      (mem_watch hfollows _).mpr (.inl ⟨d, hmem, hcompiles, hclaims⟩)
    exact ⟨d, e, hmem, hby, he, .inl ⟨hclaims, hwatched⟩⟩
  · cases he : Path.extension? x.path with
    | none => simp [he] at hhinted
    | some e => exact ⟨d, e, hmem, hby, rfl, .inr (hnone e he)⟩

/-- What is left of a cached script after the source of changes has reported its change. -/
theorem emit_drops_iff {h : Host} {a : Activity} (hfollows : h.site.Follows home a)
    {x : CachedScript} (hx : h.site.cache.get? x.path = some x)
    (hsource : h.site.source.isSome = true) {batch : List ChangeEvent}
    (hbatch : .changed x.path ∈ batch) :
    (h.emit batch).site.cache.get? x.path = none ↔
      a.watch.selects x.path = true ∨ (a.watch.patterns ≠ [] ∧ RemovesAt batch x.path) := by
  have hget : (h.emit batch).site.cache.get? x.path = _ := (hfollows.emit batch).2 x.path
  have hhits := any_hits_iff (w := a.watch) hbatch
  rw [hget, hx]
  constructor
  · intro hnone
    split at hnone
    · next hhit =>
        obtain ⟨_, hpatterns, hhit⟩ := hhit
        rcases hhits.mp hhit with hselects | hremoved
        · exact .inl hselects
        · exact .inr ⟨hpatterns, hremoved⟩
    · cases hnone
  · rintro (hselects | ⟨hpatterns, hremoved⟩)
    · rw [if_pos ⟨hsource, patterns_ne_nil hselects, hhits.mpr (.inl hselects)⟩]
    · rw [if_pos ⟨hsource, hpatterns, hhits.mpr (.inr hremoved)⟩]

/-- **Which reports drop a cached script**, in every host that comes about: a report of its change
does exactly if the watch set selects its path. -/
theorem reported {h : Host} (hr : h.Reachable) {a : Activity} (ha : h.site.cache.phase = .active a)
    {path : String} {x : CachedScript} (hx : h.site.cache.get? path = some x) :
    x.path = path ∧ h.Reported a x := by
  have hcaches : h.Caches IsChosen := hr.caches fun _ _ _ => isChosen_of_makes
  obtain ⟨rfl, hchosen⟩ := hcaches path x hx
  have hfollows := hr.linked.follows ha
  refine ⟨rfl, mem_watch hfollows, exists_engine hfollows hchosen, ?_, ?_, ?_, ?_, ?_, ?_⟩
  · intro e he hmem hplain hshallow
    exact WatchSet.selects_of_extension hshallow he hmem hplain
  · exact fun hplain => WatchSet.selects_iff hplain x.path
  · intro batch hbatch
    rw [ScriptCache.get?_invalidate hfollows.isDisposed, hfollows.watch?, ← any_hits_iff hbatch, hx]
    split <;> simp_all
  · exact fun hsource batch hbatch => emit_drops_iff hfollows hx hsource hbatch
  · exact fun batch demand _ hnone => recompiles_of_none hnone
  · intro batch demand _ hsome
    obtain ⟨y, hy⟩ := Option.ne_none_iff_exists'.mp hsome
    exact reuses_of_some hy

theorem reported_by_extension :
    ∃ a x, (Sample.host "/s.x").Reachable ∧ (Sample.host "/s.x").site.cache.phase = .active a ∧
      (Sample.host "/s.x").site.cache.get? "/s.x" = some x ∧ x.path = "/s.x" ∧
      (Sample.host "/s.x").Reported a x := by
  have hr := Sample.reachable_host "/s.x"
  have hcached : ((Sample.host "/s.x").site.cache.get? "/s.x").isSome = true := by cbv
  obtain ⟨x, hx⟩ := Option.isSome_iff_exists.mp hcached
  rcases hr.linked.life with ⟨a, ha⟩ | ⟨_, hempty⟩
  · obtain ⟨hpath, hreported⟩ := reported hr ha.phase hx
    exact ⟨a, x, hr, ha.phase, hx, hpath, hreported⟩
  · rw [hempty] at hx
    cases hx

/-- A script whose engine was chosen by a hint alone stays in the cache when it has changed, and the
next execution does not look at it. -/
theorem stale_by_hint :
    (Sample.host "/s.y").Reachable ∧ (Sample.host "/s.y").site.cache.phase.name = "active" ∧
      ∀ demand ∈ [Demand.invalidate [.changed "/s.y"], .report [.changed "/s.y"]],
        (((Sample.host "/s.y").serve demand).2.site.cache.get? "/s.y").isSome = true ∧
          ((Sample.host "/s.y").serve demand).2.Reuses "/s.y" := by
  refine ⟨Sample.reachable_host "/s.y", by cbv, fun demand hdemand => ?_⟩
  have hkept : (((Sample.host "/s.y").serve demand).2.site.cache.get? "/s.y").isSome = true := by
    rcases List.mem_pair.mp hdemand with rfl | rfl
    · cbv
    · cbv
  obtain ⟨x, hx⟩ := Option.isSome_iff_exists.mp hkept
  exact ⟨hkept, reuses_of_some hx⟩

end Host

end ScriptHost
