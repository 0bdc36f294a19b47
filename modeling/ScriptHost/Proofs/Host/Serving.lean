import ScriptHost.Proofs.Cache.Following
import ScriptHost.Proofs.Host.Execution
import ScriptHost.Sample.Engines

/-! # Hosts that come about

A host starts with a new registry and a new cache and then serves demands of any kind in any order:
changes of the engines and of the providers, executions, reports of changes, what its surroundings
do to the world, and its end. Every such host keeps the link between its cache and its registry
(`Host.Linked`): the cache follows the registry until it is disposed of. A demand keeps a cached
script only while the same engines are published, and only executions make new ones; so what holds
of the scripts that executions make holds of all that are cached (`Host.Caches`). -/

namespace ScriptHost

inductive Demand where
  | register (request : Registration)
  | addProvider (p : Provider) (r : ProviderRegistration)
  | removeProvider (id : Nat)
  | openReader (bytes : Bytes)
  | addHelper (helper : Helper)
  | setServices (services : Option Services)
  | execute (around : Surroundings) (script : ResourceId) (bindings : Bindings)
      (o : ExecuteOptions)
  | report (events : List ChangeEvent)
  /-- Reports that are given to the cache itself. -/
  | invalidate (events : List ChangeEvent)
  | forget (path : String)
  | trim (keep : Nat)
  | clear
  | shutdown

namespace Host

/-- What an execution comes to. -/
abbrev Outcome := Except ExecuteError (Option Data)

def setCache (h : Host) (c : ScriptCache) : Host :=
  { h with site := { h.site with cache := c } }

/-- Serves a demand; there is an outcome if it is an execution. -/
def serve (h : Host) : Demand → Option Outcome × Host
  | .register request => (none, (h.register request).2)
  | .addProvider p r => (none, (h.addProvider p r).2)
  | .removeProvider id => (none, (h.removeProvider id).2)
  | .openReader bytes => (none, { h with world := (h.world.openReader bytes).2 })
  | .addHelper helper => (none, { h with world := (h.world.addHelper helper).2 })
  | .setServices services => (none, { h with world := { h.world with services } })
  | .execute around script bindings o =>
    let (outcome, h) := h.execute around script bindings o
    (some outcome, h)
  | .report events => (none, h.emit events)
  | .invalidate events => (none, h.setCache (h.site.cache.invalidate events))
  | .forget path => (none, h.setCache (h.site.cache.remove path).2)
  | .trim keep => (none, h.setCache (h.site.cache.trim keep).2)
  | .clear => (none, h.setCache h.site.cache.clear)
  | .shutdown => (none, h.shutdown.2)

/-- The host after some demands. -/
def after (h : Host) (demands : List Demand) : Host :=
  demands.foldl (fun h demand => (h.serve demand).2) h

/-- What these demands come to, one after the other. -/
def outcomes (h : Host) : List Demand → List (Option Outcome)
  | [] => []
  | demand :: rest => (h.serve demand).1 :: (h.serve demand).2.outcomes rest

@[simp] theorem after_nil (h : Host) : h.after [] = h := rfl

@[simp] theorem after_cons (h : Host) (demand : Demand) (rest : List Demand) :
    h.after (demand :: rest) = (h.serve demand).2.after rest := rfl

@[simp] theorem after_append (h : Host) (demands rest : List Demand) :
    h.after (demands ++ rest) = (h.after demands).after rest :=
  List.foldl_append

/-- A source of changes to which nobody has subscribed yet. -/
def IsFresh (source : Option ChangeSource) : Prop := ∀ s, source = some s → s.subscriptions = []

/-- The hosts that come about. -/
inductive Reachable : Host → Prop where
  | start (settings : Settings) {source : Option ChangeSource} (services : Option Services)
      (withTemplate : Bool) : IsFresh source →
      Reachable (Host.start settings source services withTemplate)
  | serve {h : Host} (demand : Demand) : Reachable h → Reachable (h.serve demand).2

theorem Reachable.after {h : Host} (hr : h.Reachable) (demands : List Demand) :
    (h.after demands).Reachable := by
  induction demands generalizing h with
  | nil => exact hr
  | cons demand rest ih => exact ih (hr.serve demand)

/-! ## Compiled forms -/

/-- Whether a demand is an execution of a path that runs a compiled form, by the engine that is
chosen for it. -/
def Runs (h : Host) (path : String) (d : Descriptor) : Demand → Prop
  | .execute around script bindings o => (around.resource script).path = path ∧
      h.engineFor around script o = some d ∧ (∃ compiler, d.RunsCompiled o.method compiler) ∧
      ∃ scope w, h.pipeline.build around (executionOf around script bindings o d) h.world =
        (.ok scope, w)
  | _ => False

/-- Whether a cached script is what a demand makes, if it does not find one. -/
def Makes (h : Host) (x : CachedScript) (demand : Demand) : Prop :=
  ∃ d, h.Runs x.path d demand ∧
    match demand with
    | .execute around script _ o =>
      d.compiled? o.method (around.resource script).opening = some x.program
    | _ => False

/-- At most one engine runs the compiled form of one path. -/
theorem Runs.unique {h : Host} {path : String} {d d' : Descriptor} {demand : Demand}
    (hd : h.Runs path d demand) (hd' : h.Runs path d' demand) : d = d' := by
  cases demand with
  | execute around script bindings o => exact Option.some.inj (hd.2.1.symm.trans hd'.2.1)
  | _ => exact hd.elim

theorem Makes.runs {h : Host} {x : CachedScript} {demand : Demand} (hx : h.Makes x demand) :
    ∃ d, h.Runs x.path d demand ∧ x.program.compiledBy = d.id := by
  obtain ⟨d, hd, hmade⟩ := hx
  cases demand with
  | execute around script bindings o =>
      obtain ⟨_, _, hprogram⟩ := Descriptor.runsCompiled_of_compiled? hmade
      exact ⟨d, hd, compiledBy?_id hprogram⟩
  | _ => exact hd.elim

/-! ## The link between cache and registry -/

/-- The cache follows the home registry until it is disposed of and empty. -/
structure Linked (h : Host) : Prop where
  registry : h.registry.Reachable
  life : (∃ a, h.site.Follows home a) ∨
    (h.site.cache.phase = .disposed ∧ ∀ path, h.site.cache.get? path = none)

/-- What the cache of a host knows while it is active is about the home registry. -/
theorem Linked.follows {h : Host} (hl : h.Linked) {a : Activity}
    (ha : h.site.cache.phase = .active a) : h.site.Follows home a := by
  rcases hl.life with ⟨a', ha'⟩ | ⟨hdisposed, _⟩
  · rw [ha'.phase] at ha
    cases ha
    exact ha'
  · rw [hdisposed] at ha
    cases ha

theorem linked_start (settings : Settings) {source : Option ChangeSource}
    (services : Option Services) (withTemplate : Bool) (hsource : IsFresh source) :
    (Host.start settings source services withTemplate).Linked ∧
      ∀ path, (Host.start settings source services withTemplate).site.cache.get? path = none := by
  -- What the cache is activated on: the first registry, perhaps with the template engine.
  have hsite : ∀ site : Installation, (site.registries home).Reachable →
      site.cache.phase = .unconfigured → site.cache.queue.IsReady → site.source = source →
      ∀ h : Host, h.site = site.activate home →
        h.Linked ∧ ∀ path, h.site.cache.get? path = none := by
    intro site hreachable hphase hqueue hsame h hh
    obtain ⟨hfollows, hempty, hregistry⟩ :=
      site.follows_activate hphase hqueue (hsame ▸ hsource) home
    refine ⟨⟨?_, .inl (hh ▸ hfollows)⟩, fun path => ?_⟩
    · unfold Host.registry
      rw [hh, hregistry]
      exact hreachable.subscribe _
    · unfold ScriptCache.get?
      rw [hh, hempty]
      rfl
  have hqueue : ({} : BackgroundQueue (List ChangeEvent)).IsReady := ⟨rfl, rfl, rfl, rfl⟩
  let first : Installation := {
    registries := fun _ => .empty
    cache := .new settings.cache.capacity settings.cache.additionalExtensions
    source }
  cases withTemplate with
  | false => exact hsite first .empty rfl hqueue rfl _ rfl
  | true =>
      have hinactive : ∀ a, first.cache.phase ≠ .active a := fun a => by
        simp [first, ScriptCache.new]
      obtain ⟨hcache, hsame⟩ :=
        first.register_inactive hinactive home (.platform Template.factory 0)
      refine hsite (first.register home (.platform Template.factory 0)).2 ?_ ?_ ?_ hsame _ rfl
      · rw [Installation.registries_register]
        exact .apply _ .empty
      · rw [hcache]
        rfl
      · rw [hcache]
        exact hqueue

/-- What is found in a cache after a demand was found there before, or the demand has just made it;
and it is not older than the published engines. -/
def Keeps (h h' : Host) (demand : Demand) : Prop :=
  ∀ path x, h'.site.cache.get? path = some x →
    h'.registry.snapshot = h.registry.snapshot ∧
      (h.site.cache.get? path = some x ∨
        h.site.cache.get? path = none ∧ x.path = path ∧ h.Makes x demand)

/-- Dropping scripts from the cache keeps the link. -/
theorem Linked.drop {h : Host} (hl : h.Linked) {c : ScriptCache}
    (hc : c = { h.site.cache with entries := c.entries })
    (hsub : ∀ path x, c.get? path = some x → h.site.cache.get? path = some x)
    (demand : Demand) : (h.setCache c).Linked ∧ h.Keeps (h.setCache c) demand := by
  refine ⟨⟨hl.registry, ?_⟩, fun path x hx => ⟨rfl, .inl (hsub path x hx)⟩⟩
  rcases hl.life with ⟨a, ha⟩ | ⟨hphase, hempty⟩
  · exact .inl ⟨a, ha.withEntries hc⟩
  · have hphase' : c.phase = .disposed := by
      rw [hc]
      exact hphase
    refine .inr ⟨hphase', fun path => ?_⟩
    show c.get? path = none
    cases hx : c.get? path with
    | none => rfl
    | some x => exact (hsub path x hx).symm.trans (hempty path)

theorem Linked.register {h : Host} (hl : h.Linked) (request : Registration) :
    (h.register request).2.Linked ∧ h.Keeps (h.register request).2 (.register request) := by
  have hreachable : (h.register request).2.registry.Reachable := by
    have hregistry : (h.register request).2.registry = (h.registry.apply request).2.1 :=
      Installation.registries_register h.site home request
    rw [hregistry]
    exact hl.registry.apply request
  rcases hl.life with ⟨a, ha⟩ | ⟨hphase, hempty⟩
  · rcases ha.register request with ⟨hcache, hsnapshot, hfollows⟩ | ⟨hnone, hfollows⟩
    · refine ⟨⟨hreachable, .inl ⟨a, hfollows⟩⟩, fun path x hx => ⟨hsnapshot, .inl ?_⟩⟩
      exact (congrArg (·.get? path) hcache).symm.trans hx
    · refine ⟨⟨hreachable, .inl hfollows⟩, fun path x hx => ?_⟩
      unfold ScriptCache.get? at hx
      cases (congrArg (·.get? path) hnone).symm.trans hx
  · have hcache : (h.register request).2.site.cache = h.site.cache :=
      (h.site.register_inactive (by simp [hphase]) home request).1
    refine ⟨⟨hreachable, .inr ?_⟩, fun path x hx => ?_⟩
    · rw [hcache]
      exact ⟨hphase, hempty⟩
    · rw [hcache, hempty] at hx
      cases hx

theorem Linked.execute {h : Host} (hl : h.Linked) (around : Surroundings) (script : ResourceId)
    (bindings : Bindings) (o : ExecuteOptions) :
    (h.execute around script bindings o).2.Linked ∧
      h.Keeps (h.execute around script bindings o).2 (.execute around script bindings o) := by
  have hsite := h.site_execute around script bindings o
  have hregistry : (h.execute around script bindings o).2.registry = h.registry := by
    unfold Host.registry
    rw [hsite]
  -- Putting a script changes the entries alone, and nothing at all once the cache is disposed of.
  have hlife : ∀ c : ScriptCache, (c = h.site.cache ∨ ∃ x, c = h.site.cache.put x) →
      (∃ a, Installation.Follows { h.site with cache := c } home a) ∨
        (c.phase = .disposed ∧ ∀ path, c.get? path = none) := by
    rintro c (rfl | ⟨x, rfl⟩)
    · exact hl.life
    · rcases hl.life with ⟨a, ha⟩ | ⟨hphase, hempty⟩
      · exact .inl ⟨a, ha.withEntries (ScriptCache.put_eq h.site.cache x)⟩
      · have hput : h.site.cache.put x = h.site.cache := by
          unfold ScriptCache.put ScriptCache.isDisposed
          simp [hphase]
        rw [hput]
        exact .inr ⟨hphase, hempty⟩
  rcases h.cache_execute_cases around script bindings o with hcache |
    ⟨d, program, hd, hprogram, hscope, hmiss, hcache⟩
  · refine ⟨⟨hregistry ▸ hl.registry, ?_⟩, fun path x hx => ⟨by rw [hregistry], .inl ?_⟩⟩
    · rw [hsite]
      exact hlife _ (.inl hcache)
    · rwa [hcache] at hx
  · refine ⟨⟨hregistry ▸ hl.registry, ?_⟩, fun path x hx => ⟨by rw [hregistry], ?_⟩⟩
    · rw [hsite]
      exact hlife _ (.inr ⟨_, hcache⟩)
    · rw [hcache] at hx
      rcases ScriptCache.get?_put hx with ⟨rfl, rfl⟩ | hx
      · obtain ⟨compiler, hcompiled, _⟩ := Descriptor.runsCompiled_of_compiled? hprogram
        exact .inr ⟨hmiss, rfl, d, ⟨rfl, hd, ⟨compiler, hcompiled⟩, hscope⟩, hprogram⟩
      · exact .inl hx

theorem Linked.emit {h : Host} (hl : h.Linked) (events : List ChangeEvent) :
    (h.emit events).Linked ∧ h.Keeps (h.emit events) (.report events) := by
  have hregistry : (h.emit events).registry = h.registry :=
    congrFun (Installation.registries_emit h.site events) home
  rcases hl.life with ⟨a, ha⟩ | ⟨hphase, hempty⟩
  · obtain ⟨hfollows, hget⟩ := ha.emit events
    refine ⟨⟨hregistry ▸ hl.registry, .inl ⟨a, hfollows⟩⟩, fun path x hx => ⟨by rw [hregistry], ?_⟩⟩
    have hx' := (hget path).symm.trans hx
    split at hx'
    · cases hx'
    · exact .inl hx'
  · obtain ⟨hphase', hentries⟩ := h.site.emit_disposed hphase events
    have hnone : ∀ path, (h.emit events).site.cache.get? path = none := fun path =>
      (congrArg (·.get? path) hentries).trans (hempty path)
    refine ⟨⟨hregistry ▸ hl.registry, .inr ⟨hphase', hnone⟩⟩, fun path x hx => ?_⟩
    rw [hnone path] at hx
    cases hx

theorem Linked.shutdown {h : Host} (hl : h.Linked) :
    h.shutdown.2.Linked ∧ h.Keeps h.shutdown.2 .shutdown := by
  obtain ⟨hphase, hentries, hregistry⟩ := h.site.dispose_spec home
  have hnone : ∀ path, h.shutdown.2.site.cache.get? path = none := fun path =>
    congrArg (·.get? path) hentries
  have hreachable : h.shutdown.2.registry.Reachable := by
    show (h.site.dispose.2.registries home).Reachable
    rcases hregistry with hsame | ⟨listener, hless⟩
    · rw [hsame]
      exact hl.registry
    · rw [hless]
      exact hl.registry.unsubscribe listener
  refine ⟨⟨hreachable, .inr ⟨hphase, hnone⟩⟩, fun path x hx => ?_⟩
  rw [hnone path] at hx
  cases hx

/-- **Every demand keeps the link**, and nothing appears in the cache but what it makes. -/
theorem Linked.serve {h : Host} (hl : h.Linked) (demand : Demand) :
    (h.serve demand).2.Linked ∧ h.Keeps (h.serve demand).2 demand := by
  -- Most demands leave the site alone.
  have hsame : ∀ {h' : Host}, h'.site = h.site → h'.Linked ∧ h.Keeps h' demand := by
    intro h' hsite
    have hregistry : h'.registry = h.registry := congrArg (·.registries home) hsite
    refine ⟨⟨hregistry ▸ hl.registry, hsite ▸ hl.life⟩, fun path x hx => ⟨by rw [hregistry], ?_⟩⟩
    rw [hsite] at hx
    exact .inl hx
  cases demand with
  | register request => exact hl.register request
  | addProvider p r => exact hsame rfl
  | removeProvider id => exact hsame rfl
  | openReader bytes => exact hsame rfl
  | addHelper helper => exact hsame rfl
  | setServices services => exact hsame rfl
  | execute around script bindings o => exact hl.execute around script bindings o
  | report events => exact hl.emit events
  | invalidate events =>
      exact hl.drop (ScriptCache.foldl_invalidate_eq [events] h.site.cache)
        (fun _ _ => ScriptCache.get?_of_invalidate) _
  | forget path =>
      refine hl.drop rfl (fun k x hx => ?_) _
      unfold ScriptCache.get? ScriptCache.remove at hx
      rw [OrderedMap.get?_erase] at hx
      split at hx
      · cases hx
      · exact hx
  | trim keep =>
      refine hl.drop rfl (fun k x hx => ?_) _
      exact OrderedMap.get?_of_subset (fun e he => List.mem_of_mem_drop he) hx
  | clear => exact hl.drop rfl (fun k x hx => by cases hx) _
  | shutdown => exact hl.shutdown

theorem Reachable.linked {h : Host} (hr : h.Reachable) : h.Linked := by
  induction hr with
  | start settings services withTemplate hsource =>
      exact (linked_start settings services withTemplate hsource).1
  | serve demand _ ih => exact (ih.serve demand).1

/-! ## What is cached -/

/-- Every cached script stands under its own path and meets a condition on the published engines. -/
def Caches (Q : Snapshot → CachedScript → Prop) (h : Host) : Prop :=
  ∀ path x, h.site.cache.get? path = some x → x.path = path ∧ Q h.registry.snapshot x

/-- **A condition that holds of what executions make holds of what is cached.** -/
theorem Caches.serve {Q : Snapshot → CachedScript → Prop} {h : Host} (hl : h.Linked)
    (hc : h.Caches Q) {demand : Demand}
    (hmakes : ∀ x, h.Makes x demand → Q h.registry.snapshot x) : (h.serve demand).2.Caches Q := by
  intro path x hx
  obtain ⟨hsnapshot, hold | ⟨_, hpath, hmade⟩⟩ := (hl.serve demand).2 path x hx
  · rw [hsnapshot]
    exact hc path x hold
  · rw [hsnapshot]
    exact ⟨hpath, hmakes x hmade⟩

theorem Reachable.caches {Q : Snapshot → CachedScript → Prop} {h : Host} (hr : h.Reachable)
    (hmakes : ∀ (h' : Host) demand x, h'.Makes x demand → Q h'.registry.snapshot x) :
    h.Caches Q := by
  induction hr with
  | start settings services withTemplate hsource =>
      intro path x hx
      rw [(linked_start settings services withTemplate hsource).2 path] at hx
      cases hx
  | @serve h demand hh ih => exact ih.serve hh.linked (hmakes h demand)

end Host

/-! ## A small host -/

namespace Sample

/-- A factory of engines that compile. -/
def compiling (name : String) (b : Behaviour) (extensions : List String) : Factory where
  id := .given name
  engineName := name
  names := [name]
  extensions := extensions
  languageName := name
  supportsCompilation := true
  engine := b.engine true false

/-- Surroundings of scripts with one path and one text, each of which names its language. -/
def around (path text : String) : Surroundings where
  resource script := { path, opening := .ok ⟨Text.encode text, none⟩, hint := fun _ => some script.name }
  resolver _ := { resolve := fun _ => none }
  request _ := { path, resource := ⟨""⟩, resolver := ⟨""⟩, body := [], tracked := false }
  response _ := ⟨.discard⟩
  output _ := {}

def register (name : String) (b : Behaviour) (extensions : List String) : Demand :=
  .register (.dynamic (compiling name b extensions) {})

/-- Executes the script that names a language. -/
def execute (path text language : String) : Demand :=
  .execute (around path text) ⟨language⟩ .empty {}

/-- A host that has one engine, for the extension x, and has executed a script by it. -/
def host (path : String) : Host :=
  (Host.start {} (some {}) none false).after [register "a" .echo ["x"], execute path "n" "a"]

theorem reachable_host (path : String) : (host path).Reachable := by
  refine (Host.Reachable.start {} none false ?_).after _
  intro s hs
  cases hs
  rfl

end Sample

end ScriptHost
