import ScriptHost.Engine.Descriptor
import ScriptHost.Provider.Registry

/-!
# Scopes

The names that one execution of a script sees. Where there is a request with its response, the
host's own names come first: the helper, the request and what belongs to it, a logger and the
identity of the script. Then come the caller's names, other than those, and at last what providers
add. A request may be given by itself, among the bindings, or by a helper; wherever it is given more
than once it must be the same.
-/

namespace ScriptHost

/-- What is to be executed, and with what. -/
structure Execution where
  script : ScriptIdentity
  engine : Descriptor
  context : Option String := none
  request : Option RequestId := none
  response : Option ResponseId := none
  bindings : Bindings

structure ScopeSettings where
  slowProviderMicros : Nat := 1000
  defaultContext : String := ProviderRegistry.defaultContext

/-- What scopes are built with. -/
structure Pipeline where
  settings : ScopeSettings
  providers : ProviderRegistry
  /-- Whether the helpers it makes can look services up. -/
  serves : Bool

structure Scope where
  bindings : Bindings
  script : ScriptIdentity
  context : String
  helper : Option HelperId
  /-- Whether the helper was made for this scope, and goes with it. -/
  ownsHelper : Bool

namespace Scope

def writer? (s : Scope) : Option Writer :=
  (s.bindings.get? Reserved.out).bind BindingValue.asWriter?

def reader? (s : Scope) : Option Reader :=
  (s.bindings.get? Reserved.reader).bind BindingValue.asReader?

/-- The helper that goes with the scope. -/
def owned? (s : Scope) : Option HelperId :=
  if s.ownsHelper then s.helper else none

/-- Gives up a scope. -/
def dispose (s : Scope) (w : World) : World :=
  w.dispose? s.owned?

end Scope

/-- The one object that all candidates are, if there is any. -/
def agree {α : Type} [DecidableEq α] (field : HelperField) :
    List (Option α) → Except ScopeError (Option α)
  | [] => .ok none
  | none :: rest => agree field rest
  | some a :: rest =>
    if rest.all fun c => c.all (· = a) then .ok (some a) else .error (.inconsistentHelper field)

/-- The parts of a request that its host's own names are made of. -/
structure Base where
  request : RequestId
  response : ResponseId
  resource : ResourceId
  resolver : ResolverId

namespace Execution

/-- The binding of a reserved name, if it is of the right kind. -/
def bound {α : Type} (x : Execution) (name : String) (as? : BindingValue → Option α) : Option α :=
  (x.bindings.get? name).bind as?

/-- The helper among the bindings; whatever else is bound in its place is a fault. -/
def suppliedHelper? (x : Execution) : Except ScopeError (Option HelperId) :=
  match x.bindings.get? Reserved.helper with
  | none => .ok none
  | some v =>
    match v.asHelper? with
    | some h => .ok (some h)
    | none => .error (.inconsistentHelper .helper)

/-- The request of an execution with what belongs to it, or why there is a conflict. -/
def base? (x : Execution) (around : Surroundings) (helper : Option Helper) :
    Except ScopeError (Option Base) := do
  let request ← agree .request
    [x.request, x.bound Reserved.request BindingValue.asRequest?, helper.map Helper.request]
  let response ← agree .response
    [x.response, x.bound Reserved.response BindingValue.asResponse?, helper.map Helper.response]
  match request, response with
  | none, _ => return none
  | some _, none => throw .missingResponse
  | some request, some response =>
    let resource ← agree .resource
      [x.bound Reserved.resource BindingValue.asResource?, helper.map Helper.resource]
    let resolver ← agree .resolver
      [x.bound Reserved.resolver BindingValue.asResolver?, helper.map Helper.resolver]
    return some {
      request
      response
      resource := resource.getD (around.request request).resource
      resolver := resolver.getD (around.request request).resolver }

/-- The reader that is bound, or a new one over the body of the request. -/
def reader (x : Execution) (around : Surroundings) (b : Base) (w : World) : Reader × World :=
  match x.bound Reserved.reader BindingValue.asReader? with
  | some r => (r, w)
  | none => w.openReader (around.request b.request).body

/-- The writer that is bound, or that of the response. -/
def writer (x : Execution) (around : Surroundings) (b : Base) : Writer :=
  (x.bound Reserved.out BindingValue.asWriter?).getD (around.response b.response).writer

/-- The host's own names. -/
def baseBindings (x : Execution) (b : Base) (helper : HelperId) (reader : Reader) (out : Writer) :
    Bindings :=
  .ofList [
    (Reserved.helper, .helper helper),
    (Reserved.request, .request b.request),
    (Reserved.response, .response b.response),
    (Reserved.resource, .resource b.resource),
    (Reserved.resolver, .resolver b.resolver),
    (Reserved.reader, .reader reader),
    (Reserved.out, .writer out),
    (Reserved.log, .logger x.script.path),
    (Reserved.script, .data x.script.toData)]

/-- The caller's names: all but the helper, and beside the host's own names only unreserved ones. -/
def extras (x : Execution) (besideBase : Bool) : List (String × BindingValue) :=
  (x.bindings.erase Reserved.helper).entries.filter fun e => !(besideBase && isReserved e.1)

end Execution

namespace Pipeline

/-- The progress line of a provider that took long. -/
def slowLine (provider : String) (micros : Nat) : String :=
  "bindings provider " ++ provider ++ " took " ++ toString micros ++ "us"

/-- Whether a provider that paused for some time took longer than it may. Running takes some time in
itself, so with no time allowed every provider is slow. -/
def isSlow (s : ScopeSettings) (micros : Nat) : Bool :=
  s.slowProviderMicros < micros || s.slowProviderMicros = 0

/-- Runs providers one after the other, up to the first that fails. -/
def provide (settings : ScopeSettings) (tracked : Bool) :
    List Provider → Bindings → World → Except ScopeError Bindings × World
  | [], b, w => (.ok b, w)
  | p :: ps, b, w =>
    match p.provision.run { bindings := b, world := w } with
    | (.error e, s) => (.error e, s.world)
    | (.ok (), s) =>
      let w := if tracked && isSlow settings s.micros then
        s.world.record (.progress (slowLine p.name s.micros)) else s.world
      provide settings tracked ps s.bindings w

/-- The host's own names for an execution with a request, the helper of the scope, and whether that
helper was made for it. -/
def layBase (p : Pipeline) (around : Surroundings) (x : Execution) (supplied : Option HelperId)
    (b : Base) (w : World) : (Bindings × HelperId) × World :=
  let (reader, w) := x.reader around b w
  let (helper, w) := match supplied with
    | some h => (h, w)
    | none => w.addHelper {
        request := b.request
        response := b.response
        resource := b.resource
        resolver := b.resolver
        script := x.script
        serves := p.serves }
  ((x.baseBindings b helper reader (x.writer around b), helper), w)

/-- Runs the providers for an execution over the names laid so far. If one fails, a helper made for
the scope is given up. -/
def finish (p : Pipeline) (around : Surroundings) (x : Execution) (laid : Bindings)
    (helper : Option HelperId) (ownsHelper : Bool) (w : World) : Except ScopeError Scope × World :=
  let context := x.context.getD p.settings.defaultContext
  let providers :=
    p.providers.providersFor context x.engine.names x.engine.compatibleLanguages
  let tracked := (helper.bind w.helper?).any fun h => (around.request h.request).tracked
  match provide p.settings tracked providers laid w with
  | (.error e, w) => (.error e, w.dispose? (if ownsHelper then helper else none))
  | (.ok bindings, w) => (.ok { bindings, script := x.script, context, helper, ownsHelper }, w)

/-- Assembles the scope of an execution. -/
def build (p : Pipeline) (around : Surroundings) (x : Execution) (w : World) :
    Except ScopeError Scope × World :=
  match x.suppliedHelper? with
  | .error e => (.error e, w)
  | .ok supplied =>
    match x.base? around (supplied.bind w.helper?) with
    | .error e => (.error e, w)
    | .ok none =>
      p.finish around x (.ofList (x.extras false)) none false w
    | .ok (some b) =>
      let ((base, helper), w) := p.layBase around x supplied b w
      p.finish around x (base.insertAll (x.extras true)) (some helper) supplied.isNone w

end Pipeline

end ScriptHost
