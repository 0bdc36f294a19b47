import ScriptHost.Engine.Snapshot
import ScriptHost.Surroundings

/-!
# Choosing an engine for a script

The engines for a script are those that serve its extension. A resource may hint at the language of
scripts with an extension, for itself and for everything below it; the nearest hint counts. Among
several engines the hint decides, and where no engine serves the extension it decides alone.
-/

namespace ScriptHost

namespace Surroundings

/-- The first hint on the way up from a node. Only nodes with ever shorter paths are visited,
whatever the resolver answers. -/
def climb (s : Surroundings) (resolver : Resolver) (extension : String) (length : Nat)
    (node : Option ResourceId) : Option String :=
  match node with
  | none => none
  | some r =>
    if (s.resource r).path.utf8ByteSize < length then
      match (s.resource r).hint extension with
      | some hint => some hint
      | none =>
        s.climb resolver extension (s.resource r).path.utf8ByteSize
          (resolver.parent (s.resource r).path)
    else none
  termination_by length

/-- The language hint for scripts with an extension at a resource: its own, or the nearest above. -/
def languageHint (s : Surroundings) (resource : ResourceId) (resolver : Resolver)
    (extension : String) : Option String :=
  match (s.resource resource).hint extension with
  | some hint => some hint
  | none =>
    s.climb resolver extension (s.resource resource).path.utf8ByteSize
      (resolver.parent (s.resource resource).path)

end Surroundings

namespace Snapshot

/-- The engine for a script at a path, given a language hint. -/
def select (s : Snapshot) (path : String) (hint : Option String) : Option Descriptor :=
  let candidates := ((Path.extension? path).map s.candidates).getD []
  match hint with
  | none => candidates.head?
  | some hint =>
    match candidates.find? (·.matchesLanguage hint) with
    | some d => some d
    | none =>
      if candidates.isEmpty then s.engines.find? (·.matchesLanguage hint) else candidates.head?

/-- The engine for a script, with the hints that a resolver leads to. -/
def selectFor (s : Snapshot) (around : Surroundings) (script : ResourceId) (resolver : Resolver) :
    Option Descriptor :=
  let path := (around.resource script).path
  s.select path ((Path.extension? path).bind (around.languageHint script resolver))

/-- The engine for a script on its own: only its own hint counts. -/
def selectAlone (s : Snapshot) (around : Surroundings) (script : ResourceId) : Option Descriptor :=
  let resource := around.resource script
  s.select resource.path ((Path.extension? resource.path).bind resource.hint)

end Snapshot

end ScriptHost
