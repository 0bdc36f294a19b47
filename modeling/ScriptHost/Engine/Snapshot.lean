import ScriptHost.Engine.Descriptor
import ScriptHost.NameSet

/-!
# Published engines

The list of registered engines at one moment, best first, with a table of who serves which key. The
table is filled engine by engine: the first to claim a key keeps it, and every later claim of
another engine is recorded as a collision.
-/

namespace ScriptHost

structure Collision where
  kind : Association
  key : String
  winner : String
  shadowed : String
  deriving DecidableEq, Repr

/-- Who serves which key, and the collisions met so far. -/
structure Claims where
  owners : OrderedMap (Association × String) Descriptor
  collisions : List Collision

namespace Claims

def empty : Claims := ⟨.empty, []⟩

/-- One claim of an engine. Claiming again what one has changes nothing. -/
def claim (c : Claims) (d : Descriptor) (kind : Association) (key : String) : Claims :=
  match c.owners.get? (kind, key) with
  | none => { c with owners := c.owners.insert (kind, key) d }
  | some owner =>
    if owner.id = d.id then c
    else { c with collisions := c.collisions ++ [⟨kind, key, owner.engineName, d.engineName⟩] }

/-- The claims of an engine of one kind. -/
def claimAll (c : Claims) (d : Descriptor) (kind : Association) : Claims :=
  (d.claims kind).foldl (fun c key => c.claim d kind key) c

/-- All claims of an engine: extensions, then names, then mime types. -/
def enter (c : Claims) (d : Descriptor) : Claims :=
  ((c.claimAll d .extension).claimAll d .name).claimAll d .mimeType

end Claims

structure Snapshot where
  generation : Nat
  engines : List Descriptor
  claims : Claims

namespace Snapshot

/-- The engines in the order of their priorities. -/
def ranked (engines : List Descriptor) : List Descriptor :=
  engines.mergeSort fun a b => a.priority.le b.priority

def build (generation : Nat) (engines : List Descriptor) : Snapshot :=
  let engines := ranked engines
  ⟨generation, engines, engines.foldl Claims.enter .empty⟩

def empty : Snapshot := build 0 []

/-- The engine that serves a key of a kind. -/
def owner? (s : Snapshot) (kind : Association) (key : String) : Option Descriptor :=
  s.claims.owners.get? (kind, kind.lookupForm key)

def byExtension? (s : Snapshot) (extension : String) : Option Descriptor :=
  s.owner? .extension extension

def byName? (s : Snapshot) (name : String) : Option Descriptor :=
  s.owner? .name name

def byMimeType? (s : Snapshot) (mimeType : String) : Option Descriptor :=
  s.owner? .mimeType mimeType

/-- The engine that serves a key of any kind: as an extension, else as a name, else as a mime
type. -/
def resolve? (s : Snapshot) (key : String) : Option Descriptor :=
  (s.byExtension? key <|> s.byName? key) <|> s.byMimeType? key

/-- All engines that claim an extension, best first. -/
def candidates (s : Snapshot) (extension : String) : List Descriptor :=
  s.engines.filter fun d => d.extensions.contains (Text.lower extension)

/-- The extensions of the engines that compile. -/
def compilableExtensions (s : Snapshot) : NameSet :=
  .ofList ((s.engines.filter Descriptor.supportsCompilation).flatMap Descriptor.extensions)

def collisions (s : Snapshot) : List Collision :=
  s.claims.collisions

def outline (s : Snapshot) : String :=
  "EngineSnapshot \x7b generation: " ++ toString s.generation ++ ", engines: " ++
    toString s.engines.length ++ ", collisions: " ++ toString s.collisions.length ++ " \x7d"

end Snapshot

end ScriptHost
