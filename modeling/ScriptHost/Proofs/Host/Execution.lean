import ScriptHost.Host
import ScriptHost.Proofs.Engine.Choice
import ScriptHost.Proofs.Host.Evaluation

/-! # What an execution does to a host

An execution ends without an engine, without a scope, or with the evaluation of the script. Of the
host it changes the world and the cache; to the cache it adds at most the form that the chosen
engine has just compiled, and only then it has looked at the source of a compiled script. -/

namespace ScriptHost

namespace Host

/-! ## The courses of an execution -/

/-- The resolver that counts for an execution. -/
def resolverOf (around : Surroundings) (o : ExecuteOptions) : Option ResolverId :=
  o.resolver <|> o.request.map fun r => (around.request r).resolver

/-- The engine that an execution is to be run by. -/
def engineFor (h : Host) (around : Surroundings) (script : ResourceId) (o : ExecuteOptions) :
    Option Descriptor :=
  h.resolve around script (resolverOf around o)

/-- Where an execution looks for a language hint, by extension. -/
def hintsOf (around : Surroundings) (script : ResourceId) (o : ExecuteOptions) :
    String → Option String :=
  match resolverOf around o with
  | some r => around.languageHint script (around.resolver r)
  | none => (around.resource script).hint

theorem engineFor_eq_select (h : Host) (around : Surroundings) (script : ResourceId)
    (o : ExecuteOptions) :
    h.engineFor around script o = h.registry.snapshot.select (around.resource script).path
      ((Path.extension? (around.resource script).path).bind (hintsOf around script o)) := by
  unfold engineFor resolve hintsOf
  cases resolverOf around o <;> rfl

/-- What the scope of an execution is assembled from. -/
def executionOf (around : Surroundings) (script : ResourceId) (bindings : Bindings)
    (o : ExecuteOptions) (d : Descriptor) : Execution where
  script := ⟨(around.resource script).path, d.engineName⟩
  engine := d
  context := o.context
  request := o.request
  response := o.response
  bindings := bindings

/-- The outcome of an evaluation as that of the execution. -/
def evaluated (h : Host) (r : Except EvaluationError Data × Stage) :
    Except ExecuteError (Option Data) × Host :=
  (match r.1 with
    | .ok value => .ok (some value)
    | .error e => .error (.evaluation e),
   { h with
    site := { h.site with cache := r.2.cache.getD h.site.cache }
    world := r.2.world })

theorem execute_of_none {h : Host} {around : Surroundings} {script : ResourceId}
    {o : ExecuteOptions} (hd : h.engineFor around script o = none) (bindings : Bindings) :
    h.execute around script bindings o = (.ok none, h) := by
  unfold engineFor resolverOf at hd
  unfold execute
  simp only [hd]

theorem execute_of_scopeError {h : Host} {around : Surroundings} {script : ResourceId}
    {bindings : Bindings} {o : ExecuteOptions} {d : Descriptor} {e : ScopeError} {w : World}
    (hd : h.engineFor around script o = some d)
    (hscope : h.pipeline.build around (executionOf around script bindings o d) h.world =
      (.error e, w)) :
    h.execute around script bindings o = (.error (.scope e), { h with world := w }) := by
  unfold engineFor resolverOf at hd
  unfold executionOf at hscope
  unfold execute
  simp only [hd, hscope]

theorem execute_of_scope {h : Host} {around : Surroundings} {script : ResourceId}
    {bindings : Bindings} {o : ExecuteOptions} {d : Descriptor} {scope : Scope} {w : World}
    (hd : h.engineFor around script o = some d)
    (hscope : h.pipeline.build around (executionOf around script bindings o d) h.world =
      (.ok scope, w)) :
    h.execute around script bindings o = h.evaluated
      (Stage.evaluate ⟨some h.site.cache, w⟩ around scope d script o.method o.errors) := by
  unfold engineFor resolverOf at hd
  unfold executionOf at hscope
  unfold execute evaluated
  simp only [hd, hscope]
  rcases Stage.evaluate ⟨some h.site.cache, w⟩ around scope d script o.method o.errors with
    ⟨e | value, stage⟩
  · rfl
  · rfl

/-- A scope is that of the script it was asked for. -/
theorem script_of_build {p : Pipeline} {around : Surroundings} {x : Execution} {w w' : World}
    {scope : Scope} (h : p.build around x w = (.ok scope, w')) : scope.script = x.script := by
  have hfinish : ∀ {laid : Bindings} {helper : Option HelperId} {owns : Bool} {v : World},
      p.finish around x laid helper owns v = (.ok scope, w') → scope.script = x.script := by
    intro laid helper owns v hf
    unfold Pipeline.finish at hf
    dsimp only at hf
    split at hf
    · cases hf
    · cases hf
      rfl
  unfold Pipeline.build at h
  split at h
  · cases h
  · split at h
    · cases h
    · exact hfinish h
    · exact hfinish h

/-! ## The cache -/

/-- **What an execution with a scope does to the cache**: a compiled form that was missing and can
be made is put there, and nothing else happens. -/
theorem cache_execute {h : Host} {around : Surroundings} {script : ResourceId}
    {bindings : Bindings} {o : ExecuteOptions} {d : Descriptor} {scope : Scope} {w : World}
    (hd : h.engineFor around script o = some d)
    (hscope : h.pipeline.build around (executionOf around script bindings o d) h.world =
      (.ok scope, w)) :
    (h.execute around script bindings o).2.site.cache =
      match h.site.cache.get? (around.resource script).path,
          d.compiled? o.method (around.resource script).opening with
      | none, some program => h.site.cache.put ⟨(around.resource script).path, program⟩
      | _, _ => h.site.cache := by
  have hpath : scope.script.path = (around.resource script).path := by
    rw [script_of_build hscope]
    rfl
  have hcache := Stage.cache_perform ⟨some h.site.cache, w⟩ around d scope.script.path script
    o.method (Stage.contextOf scope o.errors)
  rw [execute_of_scope hd hscope, Stage.evaluate_eq]
  unfold evaluated
  dsimp only
  rw [hcache, hpath]
  dsimp only [Option.bind_some]
  cases h.site.cache.get? (around.resource script).path with
  | some x => rfl
  | none => cases d.compiled? o.method (around.resource script).opening <;> rfl

/-- Of the site of a host an execution changes the cache alone. -/
theorem site_execute (h : Host) (around : Surroundings) (script : ResourceId) (bindings : Bindings)
    (o : ExecuteOptions) :
    (h.execute around script bindings o).2.site =
      { h.site with cache := (h.execute around script bindings o).2.site.cache } := by
  cases hd : h.engineFor around script o with
  | none => rw [execute_of_none hd]
  | some d =>
      rcases hscope : h.pipeline.build around (executionOf around script bindings o d) h.world with
        ⟨e | scope, w⟩
      · rw [execute_of_scopeError hd hscope]
      · rw [execute_of_scope hd hscope]
        rfl

/-- **An execution leaves the cache as it is, or puts in what the chosen engine has compiled.** -/
theorem cache_execute_cases (h : Host) (around : Surroundings) (script : ResourceId)
    (bindings : Bindings) (o : ExecuteOptions) :
    (h.execute around script bindings o).2.site.cache = h.site.cache ∨
      ∃ d program, h.engineFor around script o = some d ∧
        d.compiled? o.method (around.resource script).opening = some program ∧
        (∃ scope w, h.pipeline.build around (executionOf around script bindings o d) h.world =
          (.ok scope, w)) ∧
        h.site.cache.get? (around.resource script).path = none ∧
        (h.execute around script bindings o).2.site.cache =
          h.site.cache.put ⟨(around.resource script).path, program⟩ := by
  cases hd : h.engineFor around script o with
  | none => exact .inl (by rw [execute_of_none hd])
  | some d =>
      rcases hscope : h.pipeline.build around (executionOf around script bindings o d) h.world with
        ⟨e | scope, w⟩
      · exact .inl (by rw [execute_of_scopeError hd hscope])
      · have hcache := cache_execute hd hscope
        split at hcache
        · next program hmiss hprogram =>
            exact .inr ⟨d, program, rfl, hprogram, ⟨scope, w, hscope⟩, hmiss, hcache⟩
        · exact .inl hcache

/-! ## The source -/

/-- **An execution by a compiled form that is cached does not look at the source**, and one by a
form that is not opens the source, and compiles it if it can be opened. -/
theorem readings_execute {h : Host} {around : Surroundings} {script : ResourceId}
    {bindings : Bindings} {o : ExecuteOptions} {d : Descriptor} {scope : Scope} {w : World}
    {compiler : Source → Except EngineError (Context → Session Data)}
    (hd : h.engineFor around script o = some d) (hcompiled : d.RunsCompiled o.method compiler)
    (hscope : h.pipeline.build around (executionOf around script bindings o d) h.world =
      (.ok scope, w)) :
    (h.execute around script bindings o).2.world.readings = h.world.readings ++
      match h.site.cache.get? (around.resource script).path with
      | some _ => []
      | none => d.readingsOf script (around.resource script).opening := by
  have hpath : scope.script.path = (around.resource script).path := by
    rw [script_of_build hscope]
    rfl
  have hbuild : w.readings = h.world.readings := by
    have := (World.blind_build h.pipeline around
      (executionOf around script bindings o d)).readings_eq h.world
    rwa [hscope] at this
  rw [execute_of_scope hd hscope, Stage.evaluate_eq]
  unfold evaluated
  dsimp only
  rw [(Stage.blind_close around scope o.errors _ _).readings_eq, hpath, ← hbuild]
  cases hx : h.site.cache.get? (around.resource script).path with
  | some x =>
      rw [Stage.readings_of_hit (s := ⟨some h.site.cache, w⟩) hcompiled hx, List.append_nil]
  | none =>
      rw [Stage.readings_of_miss (s := ⟨some h.site.cache, w⟩) hcompiled hx]

/-! ## With and without a cache -/

/-- The same host with a cache without capacity. -/
structure Plain (h p : Host) : Prop where
  settings : p.settings.bindings = h.settings.bindings
  site : p.site = h.site.bare
  providers : p.providers = h.providers
  world : h.world.shown = p.world.shown

theorem Plain.pipeline {h p : Host} (hp : Plain h p) : p.pipeline = h.pipeline := by
  have hservices : p.world.services = h.world.services :=
    (congrArg World.services hp.world).symm
  unfold Host.pipeline
  rw [hp.settings, hp.providers, hservices]

theorem Plain.engineFor {h p : Host} (hp : Plain h p) (around : Surroundings) (script : ResourceId)
    (o : ExecuteOptions) : p.engineFor around script o = h.engineFor around script o := by
  have hregistry : p.registry = h.registry := by
    unfold Host.registry
    rw [hp.site]
    rfl
  unfold Host.engineFor Host.resolve
  rw [hregistry]

/-- **An execution comes to the same without a cache**, if what is cached for its path is what the
chosen engine would make. -/
theorem Plain.execute {h p : Host} (hp : Plain h p) (around : Surroundings) (script : ResourceId)
    (bindings : Bindings) (o : ExecuteOptions)
    (hown : ∀ d compiler scope w x, h.engineFor around script o = some d →
      d.RunsCompiled o.method compiler →
      h.pipeline.build around (executionOf around script bindings o d) h.world = (.ok scope, w) →
      h.site.cache.get? (around.resource script).path = some x →
      compiledBy? d.id compiler (around.resource script).opening = some x.program) :
    (h.execute around script bindings o).1 = (p.execute around script bindings o).1 ∧
      Plain (h.execute around script bindings o).2 (p.execute around script bindings o).2 := by
  have hengine := hp.engineFor around script o
  cases hd : h.engineFor around script o with
  | none =>
      rw [hd] at hengine
      rw [execute_of_none hd, execute_of_none hengine]
      exact ⟨rfl, hp⟩
  | some d =>
      rw [hd] at hengine
      obtain ⟨hresult, hworld⟩ := (World.blind_build h.pipeline around
        (executionOf around script bindings o d)).shown_eq hp.world
      rcases hscope : h.pipeline.build around (executionOf around script bindings o d) h.world with
        ⟨result, w⟩
      rcases hscope' : h.pipeline.build around (executionOf around script bindings o d) p.world with
        ⟨result', w'⟩
      rw [hscope, hscope'] at hresult hworld
      have hshown : w.shown = w'.shown := hworld
      cases hresult
      rw [← hp.pipeline] at hscope'
      cases result with
      | error e =>
          rw [execute_of_scopeError hd hscope, execute_of_scopeError hengine hscope']
          exact ⟨rfl, hp.settings, hp.site, hp.providers, hshown⟩
      | ok scope =>
          have hpath : scope.script.path = (around.resource script).path := by
            rw [script_of_build hscope]
            rfl
          have hcache : p.site.cache = h.site.cache.bare := by
            rw [hp.site]
            rfl
          have hnamed : Stage.resourceOf around scope w = Stage.resourceOf around scope w' := by
            have hhelpers : w.shown.helpers = w'.shown.helpers := by rw [hshown]
            replace hhelpers : w.helpers = w'.helpers := hhelpers
            unfold Stage.resourceOf World.helper?
            rw [hhelpers]
          obtain ⟨hperform, hafter⟩ := Stage.perform_alike
            (s := ⟨some h.site.cache, w⟩) (t := ⟨some p.site.cache, w'⟩) rfl
            (congrArg some hcache) hshown around d scope.script.path script o.method
            (Stage.contextOf scope o.errors)
            (fun compiler x hc hx => hown d compiler scope w x hd hc hscope (hpath ▸ hx))
          -- What follows the evaluation proper is blind, so it closes both scopes alike.
          obtain ⟨hclose, hclosed⟩ := (Stage.blind_close around scope o.errors
            (Stage.resourceOf around scope w') _).shown_eq hafter.world
          obtain ⟨c, hc, hbare⟩ := hafter.cache
          rw [execute_of_scope hd hscope, execute_of_scope hengine hscope', Stage.evaluate_eq,
            Stage.evaluate_eq]
          dsimp only
          rw [hnamed, ← hperform]
          refine ⟨?_, hp.settings, ?_, hp.providers, hclosed⟩
          · unfold evaluated
            dsimp only
            rw [hclose]
          · unfold evaluated
            dsimp only
            rw [hc, hafter.bare, Option.getD_some, Option.getD_some, hp.site]
            show { h.site with cache := h.site.cache.bare } = { h.site with cache := c.bare }
            rw [hbare]

end Host

end ScriptHost
