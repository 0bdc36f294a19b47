import ScriptHost.Cache.Script
import ScriptHost.Scope

/-!
# Evaluation

Runs a script in its scope. An engine that compiles does so once per path, and the cache keeps the
result; where a method is to be called the source is run afresh and then the call is made, by the
engine if it can, else by source text that is put behind the script's own. Whatever happens, the
output for errors is flushed once after the last step, and a failure is given the name of its
script.
-/

namespace ScriptHost

structure MethodCall where
  name : String
  args : List Data

structure EvaluationError where
  script : String
  /-- What went wrong, in words. -/
  message : String
  /-- The path of the resource that was to be shown, if it is known. -/
  resource : Option String
  cause : Option EngineError
  deriving DecidableEq, Repr

namespace EvaluationError

/-- The failure of a script by a fault of its engine, in the words of that fault. -/
def new (script : String) (resource : Option String) (cause : EngineError) : EvaluationError where
  script
  message := cause.message
  resource
  cause := some cause

def display (e : EvaluationError) : String :=
  "failed to evaluate " ++ e.script ++ ": " ++ e.message

end EvaluationError

/-- What executions share: the cache, if there is one, and the world. -/
structure Stage where
  cache : Option ScriptCache
  world : World

namespace Stage

/-- Makes the engine of a registration, unless it has been made before. -/
def demandEngine (s : Stage) (d : Descriptor) : Stage :=
  if s.world.journal.contains (.makeEngine d.factory.id d.id) then s
  else { s with world := s.world.record (.makeEngine d.factory.id d.id) }

def open_ (s : Stage) (around : Surroundings) (r : ResourceId) :
    Except EngineError Source × Stage :=
  let (result, world) := s.world.openResource around r
  (result, { s with world })

def run {α : Type} (s : Stage) (around : Surroundings) (session : Session α) :
    Except EngineError α × Stage :=
  let (result, world) := World.run around session s.world
  (result, { s with world })

/-- Opens and compiles a script, and keeps the result. -/
def compile (s : Stage) (around : Surroundings) (d : Descriptor)
    (compiler : Source → Except EngineError (Context → Session Data)) (path : String)
    (source : ResourceId) : Except EngineError Program × Stage :=
  match s.open_ around source with
  | (.error e, s) => (.error e, s)
  | (.ok body, s) =>
    let s := { s with world := s.world.record (.compile d.factory.id) }
    match compiler body with
    | .error e => (.error e, s)
    | .ok run =>
      let program : Program := ⟨d.id, run⟩
      (.ok program, { s with cache := s.cache.map (·.put ⟨path, program⟩) })

/-- The compiled form of a script: the one in the cache, or a new one. -/
def programFor (s : Stage) (around : Surroundings) (d : Descriptor)
    (compiler : Source → Except EngineError (Context → Session Data)) (path : String)
    (source : ResourceId) : Except EngineError Program × Stage :=
  match s.cache.bind (·.get? path) with
  | some hit => (.ok hit.program, s)
  | none => s.compile around d compiler path source

/-- What runs the source of a script and then calls a method: the engine itself, in the context that
the source leaves, or else source text behind the script's own. -/
def callSession (d : Descriptor) (body : Source) (ctx : Context) (call : MethodCall) :
    Session Data :=
  let engine := d.factory.engine
  match engine.invoke? with
  | some invoke =>
    (engine.evaluate body ctx).andThen fun ran => invoke ran.context call.name call.args
  | none =>
    match d.factory.callText? call.name call.args with
    | some text =>
      let chained := body.followedBy (Text.encode ("\n" ++ text ++ "\n"))
      (engine.evaluate chained ctx).map Evaluated.value
    | none => .fail (.unsupported (d.engineName ++ " cannot call method " ++ call.name))

/-- Runs a script with its engine. -/
def perform (s : Stage) (around : Surroundings) (d : Descriptor) (path : String)
    (source : ResourceId) (method : Option MethodCall) (ctx : Context) :
    Except EngineError Data × Stage :=
  let s := s.demandEngine d
  let direct (session : Source → Session Data) : Except EngineError Data × Stage :=
    match s.open_ around source with
    | (.error e, s) => (.error e, s)
    | (.ok body, s) => s.run around (session body)
  match method with
  | some call => direct fun body => callSession d body ctx call
  | none =>
    match d.supportsCompilation, d.factory.engine.compile? with
    | true, some compiler =>
      match s.programFor around d compiler path source with
      | (.error e, s) => (.error e, s)
      | (.ok program, s) => s.run around (program.run ctx)
    | _, _ => direct fun body => (d.factory.engine.evaluate body ctx).map Evaluated.value

/-- The context of a scope. -/
def contextOf (scope : Scope) (errors : Option Writer) : Context where
  bindings := scope.bindings
  output := scope.writer?.getD .discard
  errors := errors.getD .discard
  input := scope.reader?.getD .empty

def flush (s : Stage) (around : Surroundings) (on : Writer) : Except String Unit × Stage :=
  let (result, world) := s.world.flush around on
  (result, { s with world })

/-- Runs a script and flushes its outputs: that for errors always, the other if the run succeeded
and the scope asks for it. -/
def performAndFlush (s : Stage) (around : Surroundings) (scope : Scope) (d : Descriptor)
    (source : ResourceId) (method : Option MethodCall) (errors : Option Writer) :
    Except EngineError Data × Stage :=
  let ctx := contextOf scope errors
  let (result, s) := s.perform around d scope.script.path source method ctx
  let (_, s) := s.flush around ctx.errors
  match result with
  | .error e => (.error e, s)
  | .ok value =>
    if scope.bindings.flag Reserved.flush then
      match s.flush around ctx.output with
      | (.error fault, s) => (.error (.io fault), s)
      | (.ok (), s) => (.ok value, s)
    else (.ok value, s)

/-- Evaluates a script in its scope, and gives the scope up. -/
def evaluate (s : Stage) (around : Surroundings) (scope : Scope) (d : Descriptor)
    (source : ResourceId) (method : Option MethodCall) (errors : Option Writer) :
    Except EvaluationError Data × Stage :=
  let resource := (scope.helper.bind s.world.helper?).map fun h => (around.resource h.resource).path
  let (result, s) := s.performAndFlush around scope d source method errors
  let s := { s with world := scope.dispose s.world }
  match result with
  | .ok value => (.ok value, s)
  | .error cause => (.error (.new scope.script.path resource cause), s)

end Stage

end ScriptHost
