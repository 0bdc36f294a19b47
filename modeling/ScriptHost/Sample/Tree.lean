import ScriptHost.OrderedMap
import ScriptHost.Surroundings

/-!
# Sample trees

A resolver over a table of paths. Some parents may be given by a table of their own; the others are
found by the path above.
-/

namespace ScriptHost.Sample

structure Tree where
  nodes : OrderedMap String ResourceId := .empty
  parents : OrderedMap String ResourceId := .empty

def Tree.resolver (t : Tree) : Resolver :=
  let byPath : Resolver := { resolve := t.nodes.get? }
  { byPath with parent := fun path => t.parents.get? path <|> byPath.parent path }

end ScriptHost.Sample
