import ScriptHost.Cache.Script
import ScriptHost.Engine.Registry

/-!
# The life of a script cache

A cache starts unconfigured. Once activated it follows the engines of one registry, and watches the
paths of scripts that these engines compile; every new set of engines empties it. Once disposed of
it stays so, empty and without subscriptions.
-/

namespace ScriptHost

/-- Who listens to a registry. -/
inductive Subscriber where
  | scriptCache
  | other (index : Nat)
  deriving DecidableEq, Repr

/-- A script cache among the registries it may follow and the source of changes it may watch. -/
structure Installation where
  registries : Nat → EngineRegistry Subscriber
  cache : ScriptCache
  source : Option ChangeSource

namespace ScriptCache

/-- The extensions to be watched for a set of engines. -/
def extensionsFor (c : ScriptCache) (s : Snapshot) : NameSet :=
  s.compilableExtensions.union c.additional

end ScriptCache

/-- Ends a subscription and makes a new one, if there is anything to watch. -/
def rewatch (source : Option ChangeSource) (previous : Option Nat) (watch : WatchSet) :
    Option Nat × Option ChangeSource :=
  match source with
  | none => (none, none)
  | some source =>
    let source := source.unsubscribe? previous
    if watch.patterns.isEmpty then (none, some source)
    else
      let (id, source) := source.subscribe watch.patterns
      (some id, some source)

namespace Installation

def setRegistry (i : Installation) (index : Nat) (r : EngineRegistry Subscriber) : Installation :=
  { i with registries := fun k => if k = index then r else i.registries k }

/-- The cache learns of a set of engines. One that is not newer than the last changes nothing. -/
def onEngines (i : Installation) (s : Snapshot) : Installation :=
  match i.cache.phase with
  | .active a =>
    if s.generation ≤ a.generation then i
    else
      let watch : WatchSet := ⟨i.cache.extensionsFor s⟩
      let cache := i.cache.clear
      if watch = a.watch then
        { i with cache := { cache with phase := .active { a with generation := s.generation } } }
      else
        let (subscription, source) := rewatch i.source a.subscription watch
        let activity := { a with generation := s.generation, watch, subscription }
        { i with cache := { cache with phase := .active activity }, source }
  | _ => i

/-- Tells all recipients of a publication. -/
def deliver (i : Installation) (p : Publication Subscriber) : Installation :=
  p.recipients.foldl (fun i recipient =>
    match recipient with
    | .scriptCache => i.onEngines p.snapshot
    | .other _ => i) i

/-- Carries out what is asked of a registry, and tells those who listen. -/
def register (i : Installation) (index : Nat) (request : Registration) : Reply × Installation :=
  let (reply, r, publication) := (i.registries index).apply request
  let i := i.setRegistry index r
  (reply, match publication with
    | some p => i.deliver p
    | none => i)

def unsubscribe (i : Installation) (index listener : Nat) : Installation :=
  i.setRegistry index ((i.registries index).unsubscribe listener).2

/-- The cache begins to follow a registry, instead of the one before. -/
def activate (i : Installation) (index : Nat) : Installation :=
  let (listener, r) := (i.registries index).subscribe .scriptCache
  let i := i.setRegistry index r
  let start (previous : Option Nat) : Installation :=
    let watch : WatchSet := ⟨i.cache.extensionsFor r.snapshot⟩
    let (subscription, source) := rewatch i.source previous watch
    let phase := .active {
      generation := r.snapshot.generation, watch, subscription, registry := index, listener }
    { i with cache := { i.cache.clear with phase }, source }
  match i.cache.phase with
  | .disposed => i.unsubscribe index listener
  | .unconfigured => start none
  | .active a => (start a.subscription).unsubscribe a.registry a.listener

/-- Ends the life of the cache. -/
def dispose (i : Installation) : ShutdownReport × Installation :=
  let i := match i.cache.phase with
    | .active a =>
      let source := i.source.map fun (s : ChangeSource) => s.unsubscribe? a.subscription
      { i with source }.unsubscribe a.registry a.listener
    | _ => i
  let cache := { i.cache.clear with phase := .disposed, queue := i.cache.queue.close }
  let cache := cache.settle
  (cache.queue.report, { i with cache })

/-- Reports changes to every subscriber of the source, and waits until they have been dealt with. A
source is meant to deliver to a subscriber what its patterns match. This one broadcasts: each
subscriber gets the whole batch whatever its patterns, so that the cache cannot rely on the source
and has to look at the paths itself. -/
def emit (i : Installation) (events : List ChangeEvent) : Installation :=
  match i.source with
  | none => i
  | some source =>
    { i with cache := (source.subscriptions.foldl (fun c _ => c.onChanges events) i.cache).settle }

end Installation

end ScriptHost
