import ScriptHost.Path
import ScriptHost.Watch

/-!
# Changes of resources

Reports that a resource was changed or removed, and a source of such reports that is told which
paths somebody watches.
-/

namespace ScriptHost

inductive ChangeEvent where
  | changed (path : String)
  | removed (path : String)
  deriving DecidableEq, Repr

/-- Whether a path lies below another, whatever slashes that one ends in. -/
def isBelow (above path : String) : Bool :=
  (Path.dropSlashes above.toList ++ ['/']).isPrefixOf path.toList

namespace ChangeEvent

/-- Whether a report makes what is known of a path worthless. A change does so for its own path, if
that is watched; with no watch set everything is. A removal does so for everything below as well. -/
def hits (watch : Option WatchSet) : ChangeEvent → String → Bool
  | .changed q, path => path = q && watch.all fun w => w.selects q
  | .removed q, path => path = q || isBelow q path

theorem hits_changed {watch : Option WatchSet} {q path : String} :
    (changed q).hits watch path = true ↔ path = q ∧ (watch.all fun w => w.selects q) = true := by
  simp [hits]

theorem hits_removed {watch : Option WatchSet} {q path : String} :
    (removed q).hits watch path = true ↔ path = q ∨ isBelow q path = true := by
  simp [hits]

end ChangeEvent

/-- The subscriptions at a source of changes, by number, with their patterns. -/
structure ChangeSource where
  subscriptions : List (Nat × List String) := []
  next : Nat := 0

namespace ChangeSource

def subscribe (s : ChangeSource) (patterns : List String) : Nat × ChangeSource :=
  (s.next, ⟨s.subscriptions ++ [(s.next, patterns)], s.next + 1⟩)

def unsubscribe (s : ChangeSource) (id : Nat) : ChangeSource :=
  { s with subscriptions := s.subscriptions.filter fun x => x.1 != id }

/-- Ends a subscription if there is one. -/
def unsubscribe? (s : ChangeSource) : Option Nat → ChangeSource
  | some id => s.unsubscribe id
  | none => s

end ChangeSource

end ScriptHost
