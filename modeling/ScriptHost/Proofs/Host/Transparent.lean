import Mathlib
import ScriptHost.Proofs.Host.Serving

/-! # When caching does not show

A host and the same host without capacity serve the same demands, and the sources of the scripts do
not change. A cached script is found by its path alone, while its engine is chosen for each
execution. As long as a path stays cached, its executions may therefore choose different engines, by
different language hints, and then an execution runs the compiled form of an engine that was not
chosen for it. `Host.transparent` says that this is the only way for the cache to show: executions
run forms of their own engines exactly if their choices agree while a path stays cached, and in that
case both hosts come to the same. -/

namespace ScriptHost

/-! ## Sources and hints -/

/-- The script of an execution opens like all scripts at its path. -/
def Demand.Opens (sources : String → Except String Source) : Demand → Prop
  | .execute around script _ _ =>
    (around.resource script).opening = sources (around.resource script).path
  | _ => True

/-- The language hint of an execution is that of all executions of its path. -/
def Demand.Hints (hints : String → Option String) : Demand → Prop
  | .execute around script _ o =>
    (Path.extension? (around.resource script).path).bind (Host.hintsOf around script o) =
      hints (around.resource script).path
  | _ => True

namespace Host

/-! ## Choices while a path stays cached -/

/-- A path is cached now and stays so throughout some demands. -/
def StaysCached (h : Host) (path : String) (demands : List Demand) : Prop :=
  ∀ part, part <+: demands → ((h.after part).site.cache.get? path).isSome = true

/-- Executions that find a cached form find one of their own engine. -/
def RunsOwn (h : Host) (demands : List Demand) : Prop :=
  ∀ before demand rest, demands = before ++ demand :: rest →
    ∀ path d x, (h.after before).Runs path d demand →
      (h.after before).site.cache.get? path = some x → x.program.compiledBy = d.id

/-- Two executions of a path that run compiled forms choose one engine if the path stays cached from
the one to the other. -/
def Agree (h : Host) (demands : List Demand) : Prop :=
  ∀ before first between second rest,
    demands = before ++ first :: (between ++ second :: rest) →
    ∀ path d d', (h.after before).Runs path d first →
      (h.after (before ++ [first])).StaysCached path between →
      (h.after (before ++ first :: between)).Runs path d' second → d'.id = d.id

theorem Linked.after {h : Host} (hl : h.Linked) (demands : List Demand) :
    (h.after demands).Linked := by
  induction demands generalizing h with
  | nil => exact hl
  | cons demand rest ih => exact ih (hl.serve demand).1

/-- While a path stays cached its script stays the same, and so do the published engines. -/
theorem StaysCached.get? {h : Host} (hl : h.Linked) {path : String} {demands : List Demand}
    (hstays : h.StaysCached path demands) {x : CachedScript}
    (hx : h.site.cache.get? path = some x) :
    (h.after demands).site.cache.get? path = some x ∧
      (h.after demands).registry.snapshot = h.registry.snapshot := by
  induction demands generalizing h with
  | nil => exact ⟨hx, rfl⟩
  | cons demand rest ih =>
      obtain ⟨hnext, hkeeps⟩ := hl.serve demand
      obtain ⟨y, hy⟩ := Option.isSome_iff_exists.mp (hstays [demand] (by simp))
      -- Nothing is made for a path that is cached already, so what is found next is the same.
      obtain ⟨hsnapshot, hold | ⟨hnone, _⟩⟩ := hkeeps path y hy
      · have hxy : y = x := Option.some.inj (hold.symm.trans hx)
        subst hxy
        have hrest : (h.serve demand).2.StaysCached path rest := fun part hpart =>
          hstays (demand :: part) (List.cons_prefix_cons.mpr ⟨rfl, hpart⟩)
        obtain ⟨hlast, hsame⟩ := ih hnext hrest hy
        exact ⟨hlast, hsame.trans hsnapshot⟩
      · rw [hnone] at hx
        cases hx

/-- What is cached was made by an execution, and has stayed cached since. -/
theorem exists_maker {h : Host} (hl : h.Linked) (hempty : ∀ path, h.site.cache.get? path = none)
    {demands : List Demand} {path : String} {x : CachedScript}
    (hx : (h.after demands).site.cache.get? path = some x) :
    ∃ before first between, demands = before ++ first :: between ∧
      (∃ d, (h.after before).Runs path d first ∧ x.program.compiledBy = d.id) ∧
      (h.after (before ++ [first])).StaysCached path between := by
  -- From the end of the run: what is cached was so before the last demand, or that has made it.
  induction demands using List.reverseRecOn with
  | nil =>
      rw [after_nil, hempty] at hx
      cases hx
  | append_singleton demands demand ih =>
      have hlast : (h.after (demands ++ [demand])).site.cache.get? path = some x := hx
      rw [after_append] at hx
      obtain ⟨_, hold | ⟨_, rfl, hmakes⟩⟩ := ((hl.after demands).serve demand).2 path x hx
      · obtain ⟨before, first, between, rfl, hmaker, hstays⟩ := ih hold
        refine ⟨before, first, between ++ [demand], by simp, hmaker, fun part hpart => ?_⟩
        rcases List.prefix_concat_iff.mp hpart with rfl | hpart
        · rw [← after_append]
          simpa using congrArg Option.isSome hlast
        · exact hstays part hpart
      · refine ⟨demands, demand, [], rfl, hmakes.runs, fun part hpart => ?_⟩
        rw [List.prefix_nil.mp hpart, after_nil, hlast]
        rfl

/-- What is cached after an execution was made by its engine, if what the execution may have found
was. -/
theorem compiledBy_of_runs {h : Host} (hl : h.Linked) {demand : Demand} {path : String}
    {d : Descriptor} (hd : h.Runs path d demand)
    (hown : ∀ x, h.site.cache.get? path = some x → x.program.compiledBy = d.id) {x : CachedScript}
    (hx : (h.serve demand).2.site.cache.get? path = some x) : x.program.compiledBy = d.id := by
  obtain ⟨_, hold | ⟨_, rfl, hmakes⟩⟩ := (hl.serve demand).2 path x hx
  · exact hown x hold
  · obtain ⟨d', hd', hby⟩ := hmakes.runs
    rw [hby, hd.unique hd']

/-- **Executions run forms of their own engines exactly if their choices agree.** -/
theorem runsOwn_iff_agree {h : Host} (hl : h.Linked)
    (hempty : ∀ path, h.site.cache.get? path = none) (demands : List Demand) :
    h.RunsOwn demands ↔ h.Agree demands := by
  constructor
  -- The form that the first execution leaves is of its engine, and the second finds just this one.
  · intro hown before first between second rest hdemands path d d' hd hstays hd'
    obtain ⟨x, hx⟩ := Option.isSome_iff_exists.mp (hstays [] List.nil_prefix)
    have hfirst : x.program.compiledBy = d.id := by
      rw [after_nil, after_append] at hx
      exact compiledBy_of_runs (hl.after before) hd
        (fun y hy => hown before first _ hdemands path d y hd hy) hx
    have hsecond : x.program.compiledBy = d'.id := by
      have hkept := (hstays.get? (hl.after _) hx).1
      refine hown (before ++ first :: between) second rest (by simp [hdemands]) path d' x hd' ?_
      simpa using hkept
    exact hsecond.symm.trans hfirst
  -- Whoever has made what is found is the first of two executions whose choices agree.
  · intro hagree before demand rest hdemands path d x hd hx
    obtain ⟨earlier, first, between, rfl, ⟨d', hd', hby⟩, hstays⟩ := exists_maker hl hempty hx
    have hsame := hagree earlier first between demand rest (by simp [hdemands]) path d' d hd' hstays hd
    exact hby.trans hsame.symm

/-- Choices agree where every path has its own language hint. -/
theorem agree_of_hints {h : Host} (hl : h.Linked) {demands : List Demand}
    {hints : String → Option String} (hhints : ∀ demand ∈ demands, demand.Hints hints) :
    h.Agree demands := by
  -- The engine of an execution is a function of the published engines and the path.
  have hengine : ∀ {h' : Host} {demand path d}, demand ∈ demands → h'.Runs path d demand →
      h'.registry.snapshot.select path (hints path) = some d := by
    intro h' demand path d hmem hd
    cases demand with
    | execute around script bindings o =>
        obtain ⟨rfl, hfor, _⟩ := hd
        have hhint := hhints _ hmem
        rw [engineFor_eq_select, show _ = _ from hhint] at hfor
        exact hfor
    | _ => exact hd.elim
  intro before first between second rest hdemands path d d' hd hstays hd'
  obtain ⟨x, hx⟩ := Option.isSome_iff_exists.mp (hstays [] List.nil_prefix)
  have hbetween := (hstays.get? (hl.after _) hx).2
  rw [after_nil, after_append] at hx
  have hfirst := (((hl.after before).serve first).2 path x hx).1
  have hsnapshot : (h.after (before ++ first :: between)).registry.snapshot =
      (h.after before).registry.snapshot := by
    refine Eq.trans ?_ hfirst
    simpa using hbetween
  have hselect := hengine (by simp [hdemands]) hd
  have hselect' := hengine (by simp [hdemands]) hd'
  rw [hsnapshot, hselect] at hselect'
  rw [Option.some.inj hselect']

/-! ## Without capacity -/

/-- A cached script is what one of the published engines makes of the source at its path. -/
def IsMade (sources : String → Except String Source) (s : Snapshot) (x : CachedScript) : Prop :=
  ∃ d ∈ s.engines, d.compiled? none (sources x.path) = some x.program

theorem engineFor_mem {h : Host} {around : Surroundings} {script : ResourceId} {o : ExecuteOptions}
    {d : Descriptor} (hd : h.engineFor around script o = some d) :
    d ∈ h.registry.snapshot.engines := by
  rw [engineFor_eq_select] at hd
  exact (Snapshot.select_some hd).1

theorem isMade_of_makes {sources : String → Except String Source} {h : Host} {demand : Demand}
    (hopens : demand.Opens sources) {x : CachedScript} (hx : h.Makes x demand) :
    IsMade sources h.registry.snapshot x := by
  obtain ⟨d, hd, hmade⟩ := hx
  cases demand with
  | execute around script bindings o =>
      obtain ⟨hpath, hengine, _⟩ := hd
      obtain ⟨_, ⟨hmethod, _⟩, _⟩ := Descriptor.runsCompiled_of_compiled? hmade
      have hopening : (around.resource script).opening = sources (around.resource script).path :=
        hopens
      dsimp only at hmade
      rw [hmethod, hopening, hpath] at hmade
      exact ⟨d, engineFor_mem hengine, hmade⟩
  | _ => exact hd.elim

/-- A cached form of the engine that is chosen is what this engine would make. -/
theorem makes_of_own {sources : String → Except String Source} {h : Host} (hl : h.Linked)
    (hc : h.Caches (IsMade sources)) {demand : Demand} (hopens : demand.Opens sources)
    {path : String} {d : Descriptor} {x : CachedScript} (hd : h.Runs path d demand)
    (hx : h.site.cache.get? path = some x) (hown : x.program.compiledBy = d.id) :
    h.Makes x demand := by
  obtain ⟨rfl, d', hmem, hmade⟩ := hc path x hx
  refine ⟨d, hd, ?_⟩
  cases demand with
  | execute around script bindings o =>
      obtain ⟨hpath, hengine, ⟨compiler, hmethod, _⟩, _⟩ := hd
      obtain ⟨_, _, hprogram⟩ := Descriptor.runsCompiled_of_compiled? hmade
      -- Numbers are not given twice, so the engine chosen is the one that compiled.
      have hsame : d' = d := hl.registry.sound.distinct_published.eq_of_id hmem
        (engineFor_mem hengine) ((compiledBy?_id hprogram).symm.trans hown)
      have hopening : (around.resource script).opening = sources (around.resource script).path :=
        hopens
      show d.compiled? o.method (around.resource script).opening = some x.program
      rw [hmethod, hopening, hpath, ← hsame, hmade]
  | _ => exact hd.elim

/-- **A demand comes to the same without capacity**, if a cached form that it finds is what it would
make. -/
theorem Plain.serve {h p : Host} (hp : Plain h p) (demand : Demand)
    (hfound : ∀ path d x, h.Runs path d demand → h.site.cache.get? path = some x →
      h.Makes x demand) :
    (h.serve demand).1 = (p.serve demand).1 ∧ Plain (h.serve demand).2 (p.serve demand).2 := by
  have hworld : ∀ op : World → Unit × World, World.Blind op →
      (op h.world).2.shown = (op p.world).2.shown := fun _ hop => (hop.shown_eq hp.world).2
  have hcache : ∀ f : ScriptCache → ScriptCache, f h.site.cache.bare = (f h.site.cache).bare →
      (p.setCache (f p.site.cache)).site = (h.setCache (f h.site.cache)).site.bare := by
    intro f hbare
    show ({ p.site with cache := f p.site.cache } : Installation) = _
    rw [hp.site]
    exact congrArg (fun c => { h.site with cache := c }) hbare
  cases demand with
  | register request =>
      have hregister : p.site.register home request =
          ((h.site.register home request).1, (h.site.register home request).2.bare) := by
        rw [hp.site, Installation.register_bare]
      refine ⟨rfl, hp.settings, ?_, hp.providers, hp.world⟩
      exact congrArg Prod.snd hregister
  | addProvider provider r =>
      refine ⟨rfl, hp.settings, hp.site, ?_, hp.world⟩
      exact congrArg (fun ps => (ProviderRegistry.register ps provider r).2) hp.providers
  | removeProvider id =>
      refine ⟨rfl, hp.settings, hp.site, ?_, hp.world⟩
      exact congrArg (fun ps => (ProviderRegistry.unregister ps id).2) hp.providers
  | openReader bytes =>
      refine ⟨rfl, hp.settings, hp.site, hp.providers, ?_⟩
      exact hworld (fun w => ((), (w.openReader bytes).2)) (.of_silent fun _ _ => rfl)
  | addHelper helper =>
      refine ⟨rfl, hp.settings, hp.site, hp.providers, ?_⟩
      exact hworld (fun w => ((), (w.addHelper helper).2)) (.of_silent fun _ _ => rfl)
  | setServices services =>
      refine ⟨rfl, hp.settings, hp.site, hp.providers, ?_⟩
      exact hworld (fun w => ((), { w with services })) (.of_silent fun _ _ => rfl)
  | execute around script bindings o =>
      obtain ⟨houtcome, hplain⟩ := hp.execute around script bindings o (by
        intro d compiler scope w x hd hcompiled hscope hx
        have hruns : h.Runs (around.resource script).path d (.execute around script bindings o) :=
          ⟨rfl, hd, ⟨compiler, hcompiled⟩, scope, w, hscope⟩
        obtain ⟨d', hd', hmade⟩ := hfound _ d x hruns hx
        have hsame : d' = d := Option.some.inj (hd'.2.1.symm.trans hd)
        rw [← hcompiled.compiled?_eq, ← hsame]
        exact hmade)
      exact ⟨congrArg some houtcome, hplain⟩
  | report events =>
      refine ⟨rfl, hp.settings, ?_, hp.providers, hp.world⟩
      show p.site.emit events = (h.site.emit events).bare
      rw [hp.site, Installation.emit_bare]
  | invalidate events =>
      refine ⟨rfl, hp.settings, ?_, hp.providers, hp.world⟩
      exact hcache (·.invalidate events) (ScriptCache.invalidate_bare _ events)
  | forget path => exact ⟨rfl, hp.settings, hcache (fun c => (c.remove path).2) rfl, hp.providers, hp.world⟩
  | trim keep =>
      refine ⟨rfl, hp.settings, ?_, hp.providers, hp.world⟩
      exact hcache (fun c => (c.trim keep).2) (ScriptCache.trim_bare _ keep)
  | clear => exact ⟨rfl, hp.settings, hcache ScriptCache.clear rfl, hp.providers, hp.world⟩
  | shutdown =>
      refine ⟨rfl, hp.settings, ?_, hp.providers, hp.world⟩
      show p.site.dispose.2 = h.site.dispose.2.bare
      rw [hp.site, Installation.dispose_bare]

/-- A run comes to the same without capacity if its executions run forms of their own engines. -/
theorem Plain.after {sources : String → Except String Source} {h p : Host} (hp : Plain h p)
    (hl : h.Linked) (hc : h.Caches (IsMade sources)) {demands : List Demand}
    (hopens : ∀ demand ∈ demands, demand.Opens sources) (hown : h.RunsOwn demands) :
    h.outcomes demands = p.outcomes demands ∧ Plain (h.after demands) (p.after demands) := by
  -- The invariant beside `Plain` is that every cached form is what a published engine makes.
  induction demands generalizing h p with
  | nil => exact ⟨rfl, hp⟩
  | cons demand rest ih =>
      obtain ⟨hopen, hopens⟩ := List.forall_mem_cons.mp hopens
      obtain ⟨houtcome, hnext⟩ := hp.serve demand fun path d x hd hx =>
        makes_of_own hl hc hopen hd hx (hown [] demand rest rfl path d x hd hx)
      have hrest : (h.serve demand).2.RunsOwn rest := fun before demand' rest' hdemands =>
        hown (demand :: before) demand' rest' (by rw [hdemands]; rfl)
      obtain ⟨houtcomes, hlast⟩ := ih hnext (hl.serve demand).1
        (hc.serve hl fun x hx => isMade_of_makes hopen hx) hopens hrest
      refine ⟨?_, hlast⟩
      unfold outcomes
      rw [houtcome, houtcomes]

/-- The same settings without capacity for cached scripts. -/
def uncached (settings : Settings) : Settings :=
  { settings with cache := { settings.cache with capacity := 0 } }

theorem plain_start (settings : Settings) (source : Option ChangeSource)
    (services : Option Services) (withTemplate : Bool) :
    Plain (Host.start settings source services withTemplate)
      (Host.start (uncached settings) source services withTemplate) := by
  let first : Installation := {
    registries := fun _ => .empty
    cache := .new settings.cache.capacity settings.cache.additionalExtensions
    source }
  refine ⟨rfl, ?_, rfl, rfl⟩
  cases withTemplate with
  | false => exact first.activate_bare home
  | true =>
      have hregister := congrArg Prod.snd
        (first.register_bare home (.platform Template.factory 0))
      show (first.bare.register home (.platform Template.factory 0)).2.activate home = _
      rw [hregister]
      exact Installation.activate_bare _ home

/-- How a run on a host compares with the run on the host without capacity. -/
structure Transparent (h p : Host) (demands : List Demand) : Prop where
  /-- Executions run forms of their own engines exactly if their choices agree, -/
  own : h.RunsOwn demands ↔ h.Agree demands
  /-- as they do where every path has its own language hint. -/
  hinted : ∀ hints, (∀ demand ∈ demands, demand.Hints hints) → h.Agree demands
  /-- If they agree, every demand comes to the same. -/
  outcomes : h.Agree demands → h.outcomes demands = p.outcomes demands
  /-- If they agree, the worlds show the same after every part of the run. -/
  shown : h.Agree demands → ∀ part, part <+: demands →
    (h.after part).world.shown = (p.after part).world.shown
  /-- If they agree, every output holds the same after every part of the run. -/
  contents : h.Agree demands → ∀ part, part <+: demands → ∀ output,
    (h.after part).world.journal.contents output = (p.after part).world.journal.contents output

/-- **Where the choices of engines agree, caching does not show**, for every run of demands during
which the sources stay the same. -/
theorem transparent (settings : Settings) {source : Option ChangeSource}
    (services : Option Services) (withTemplate : Bool) (hsource : IsFresh source)
    {sources : String → Except String Source} {demands : List Demand}
    (hopens : ∀ demand ∈ demands, demand.Opens sources) :
    Transparent (Host.start settings source services withTemplate)
      (Host.start (uncached settings) source services withTemplate) demands := by
  obtain ⟨hl, hempty⟩ := linked_start settings services withTemplate hsource
  have hp := plain_start settings source services withTemplate
  generalize Host.start settings source services withTemplate = h at hl hempty hp ⊢
  generalize Host.start (uncached settings) source services withTemplate = p at hp ⊢
  have hiff := runsOwn_iff_agree hl hempty demands
  have hc : h.Caches (IsMade sources) := by
    intro path x hx
    rw [hempty] at hx
    cases hx
  have hparts : h.Agree demands → ∀ part, part <+: demands →
      (h.after part).world.shown = (p.after part).world.shown := by
    rintro hagree part ⟨rest, rfl⟩
    have hown : h.RunsOwn part := fun before demand later hpart =>
      hiff.mpr hagree before demand (later ++ rest) (by simp [hpart])
    have hopens : ∀ demand ∈ part, demand.Opens sources := fun demand hdemand =>
      hopens demand (List.mem_append_left rest hdemand)
    exact (hp.after hl hc hopens hown).2.world
  refine ⟨hiff, fun hints => agree_of_hints hl, fun hagree => ?_, hparts, ?_⟩
  · exact (hp.after hl hc hopens (hiff.mpr hagree)).1
  · intro hagree part hpart output
    rw [← World.contents_shown, hparts hagree part hpart, World.contents_shown]

theorem transparent_twice :
    let demands := [Sample.register "a" .echo ["x"], Sample.execute "/s.x" "n" "a",
      Sample.execute "/s.x" "n" "a"]
    (∀ demand ∈ demands, demand.Opens fun _ => .ok ⟨Text.encode "n", none⟩) ∧
      Transparent (Host.start {} none none false) (Host.start (uncached {}) none none false)
        demands := by
  intro demands
  have hopens : ∀ demand ∈ demands, demand.Opens fun _ => .ok ⟨Text.encode "n", none⟩ := by
    simp [demands, Demand.Opens, Sample.register, Sample.execute, Sample.around]
  exact ⟨hopens, transparent {} none false (fun _ hs => by cases hs) hopens⟩

/-- Two scripts lie at one path and name different languages. The second is run by the compiled form
of the engine of the first, and without capacity by its own. -/
theorem foreign_form_by_hint :
    let demands := [Sample.register "a" .echo ["x"], Sample.register "b" .vars ["x"],
      Sample.execute "/s.x" "n" "a", Sample.execute "/s.x" "n" "b"]
    (∀ demand ∈ demands, demand.Opens fun _ => .ok ⟨Text.encode "n", none⟩) ∧
      (Host.start {} none none false).outcomes demands =
        [none, none, some (.ok (some (.text "n"))), some (.ok (some (.text "n")))] ∧
      (Host.start (uncached {}) none none false).outcomes demands =
        [none, none, some (.ok (some (.text "n"))),
          some (.ok (some (.list [.text "n=-"])))] := by
  refine ⟨?_, ?_, ?_⟩
  · simp [Demand.Opens, Sample.register, Sample.execute, Sample.around]
  · cbv
  · cbv

end Host

end ScriptHost
