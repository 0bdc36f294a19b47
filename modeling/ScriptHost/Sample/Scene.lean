import ScriptHost.Sample.Engines
import ScriptHost.Sample.Tree
import ScriptHost.World

/-!
# Scenes

The objects that scripts are run among, each under a name: resources, trees to resolve paths in,
requests and responses, outputs, engines, and helpers. An object that nothing is said about is the
plainest of its kind.
-/

namespace ScriptHost.Sample

structure Scene where
  resources : OrderedMap String Resource := .empty
  trees : OrderedMap String Tree := .empty
  requests : OrderedMap String Request := .empty
  responses : OrderedMap String Response := .empty
  outputs : OrderedMap String Output := .empty
  engines : OrderedMap String Factory := .empty
  helpers : OrderedMap String HelperId := .empty

/-- An engine by its name alone: it repeats its source. -/
def plainFactory (name : String) : Factory where
  id := .given name
  engineName := name
  names := [name]
  extensions := []
  languageName := name
  engine := Behaviour.echo.engine false false

namespace Scene

def surroundings (s : Scene) : Surroundings where
  resource r := (s.resources.get? r.name).getD { path := "", opening := .ok ⟨[], none⟩ }
  resolver r := ((s.trees.get? r.name).getD {}).resolver
  request r := (s.requests.get? r.name).getD
    { path := "", resource := ⟨""⟩, resolver := ⟨""⟩, body := [], tracked := false }
  response r := (s.responses.get? r.name).getD { writer := .discard }
  output name := (s.outputs.get? name).getD {}

def engine (s : Scene) (name : String) : Factory :=
  (s.engines.get? name).getD (plainFactory name)

/-- The name of a helper, if the scene knows it. -/
def helperName? (s : Scene) (h : HelperId) : Option String :=
  (s.helpers.entries.find? fun e => e.2 == h).map Prod.fst

/-- Puts a resource at a path of a tree. -/
def plant (s : Scene) (tree path : String) (r : ResourceId) : Scene :=
  let t := (s.trees.get? tree).getD {}
  { s with trees := s.trees.insert tree { t with nodes := t.nodes.insert path r } }

/-- Takes away what is at a path of a tree; whether there was anything. -/
def uproot (s : Scene) (tree path : String) : Bool × Scene :=
  let t := (s.trees.get? tree).getD {}
  (t.nodes.contains path,
    { s with trees := s.trees.insert tree { t with nodes := t.nodes.erase path } })

end Scene

end ScriptHost.Sample
