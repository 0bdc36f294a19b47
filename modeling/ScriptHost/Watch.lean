import ScriptHost.Glob
import ScriptHost.NameSet

/-!
# Watch sets

The extensions of scripts whose changes matter, and the globs that select the paths with them. An
extension that does not make a well-formed glob stays in the set and selects nothing. The globs are
looked for together, so one that nests too deep keeps the others from selecting anything.
-/

namespace ScriptHost

structure WatchSet where
  extensions : NameSet
  deriving DecidableEq

namespace WatchSet

def empty : WatchSet := ⟨.empty⟩

/-- The glob of the paths with an extension, in any folder. -/
def glob (extension : String) : String :=
  "**/*." ++ extension

/-- The well-formed globs of the extensions, in their order. -/
def patterns (w : WatchSet) : List String :=
  (w.extensions.names.map glob).filter fun g => (Glob.tokens? g).isSome

/-- Whether no glob nests deeper than globs are looked for. -/
def isShallow (w : WatchSet) : Bool :=
  w.patterns.all fun g => (Glob.depth? g).all (· ≤ Glob.depthLimit)

/-- Whether one of the globs selects a path. -/
def selects (w : WatchSet) (path : String) : Bool :=
  w.isShallow && w.patterns.any fun g => Glob.accepts g path

end WatchSet

end ScriptHost
