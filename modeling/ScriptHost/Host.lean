import ScriptHost.Cache.Lifecycle
import ScriptHost.Engine.Selection
import ScriptHost.Evaluation
import ScriptHost.Settings
import ScriptHost.Template.Engine

/-!
# The host of scripts

Everything together: a registry of engines with a cache that follows it, providers of bindings, and
perhaps services and a source of changes. Executing a script means to choose its engine, to assemble
its scope, and to evaluate it there.
-/

namespace ScriptHost

structure Host where
  settings : Settings
  site : Installation
  providers : ProviderRegistry
  world : World

/-- How a script is to be executed, beside its bindings. -/
structure ExecuteOptions where
  request : Option RequestId := none
  response : Option ResponseId := none
  context : Option String := none
  method : Option MethodCall := none
  errors : Option Writer := none
  /-- Where language hints are looked for if there is no request. -/
  resolver : Option ResolverId := none

inductive ExecuteError where
  | scope (e : ScopeError)
  | evaluation (e : EvaluationError)
  deriving DecidableEq, Repr

def ExecuteError.message : ExecuteError → String
  | .scope e => e.message
  | .evaluation e => e.display

namespace Host

/-- The number of the host's own registry. -/
def home : Nat := 0

/-- A new host. Its cache follows the engines from the start, and its providers are active. -/
def start (settings : Settings) (source : Option ChangeSource) (services : Option Services)
    (withTemplate : Bool) : Host :=
  let site : Installation := {
    registries := fun _ => .empty
    cache := .new settings.cache.capacity settings.cache.additionalExtensions
    source }
  let site := if withTemplate then (site.register home (.platform Template.factory 0)).2 else site
  { settings
    site := site.activate home
    providers := ProviderRegistry.empty.activate.2
    world := { services } }

def registry (h : Host) : EngineRegistry Subscriber :=
  h.site.registries home

def pipeline (h : Host) : Pipeline where
  settings := ⟨h.settings.bindings.slowProviderMicros, h.settings.bindings.defaultContext⟩
  providers := h.providers
  serves := h.world.services.isSome

def register (h : Host) (request : Registration) : Reply × Host :=
  let (reply, site) := h.site.register home request
  (reply, { h with site })

def addProvider (h : Host) (p : Provider) (r : ProviderRegistration) : Nat × Host :=
  let (id, providers) := h.providers.register p r
  (id, { h with providers })

def removeProvider (h : Host) (id : Nat) : Bool × Host :=
  let (any, providers) := h.providers.unregister id
  (any, { h with providers })

/-- The engine for a script. Without a resolver only the script's own hint counts. -/
def resolve (h : Host) (around : Surroundings) (script : ResourceId)
    (resolver : Option ResolverId) : Option Descriptor :=
  match resolver with
  | some r => h.registry.snapshot.selectFor around script (around.resolver r)
  | none => h.registry.snapshot.selectAlone around script

/-- Executes a script; there is no result if no engine is found for it. -/
def execute (h : Host) (around : Surroundings) (script : ResourceId) (bindings : Bindings)
    (o : ExecuteOptions) : Except ExecuteError (Option Data) × Host :=
  let resolver := o.resolver <|> o.request.map fun r => (around.request r).resolver
  match h.resolve around script resolver with
  | none => (.ok none, h)
  | some engine =>
    let execution : Execution := {
      script := ⟨(around.resource script).path, engine.engineName⟩
      engine
      context := o.context
      request := o.request
      response := o.response
      bindings }
    match h.pipeline.build around execution h.world with
    | (.error e, world) => (.error (.scope e), { h with world })
    | (.ok scope, world) =>
      let (result, stage) :=
        Stage.evaluate ⟨some h.site.cache, world⟩ around scope engine script o.method o.errors
      let h := { h with
        site := { h.site with cache := stage.cache.getD h.site.cache }
        world := stage.world }
      match result with
      | .ok value => (.ok (some value), h)
      | .error e => (.error (.evaluation e), h)

def emit (h : Host) (events : List ChangeEvent) : Host :=
  { h with site := h.site.emit events }

def shutdown (h : Host) : ShutdownReport × Host :=
  let (report, site) := h.site.dispose
  (report, { h with site })

end Host

end ScriptHost
