import ScriptHost.Binding.Protected
import ScriptHost.World

/-!
# Providers of bindings

A provider adds bindings to the scope of a script. All it can do there is read the bindings, write
them with the reserved names protected, acquire services through a helper, and take its time; a
`Provision` is such a course of steps.
-/

namespace ScriptHost

inductive Provision where
  | done
  | fail (e : ScopeError)
  | read (next : Bindings → Provision)
  | put (name : String) (value : BindingValue)
      (next : Except ScopeError (Option BindingValue) → Provision)
  | putAll (values : Bindings) (next : Except ScopeError Unit → Provision)
  | take (name : String) (next : Except ScopeError (Option BindingValue) → Provision)
  | acquire (helper : HelperId) (q : Query) (next : List Service → Provision)
  | pause (micros : Nat) (next : Provision)

structure Provider where
  name : String
  provision : Provision

/-- A provider that binds fixed values, all or none. -/
def Provider.ofValues (name : String) (values : Bindings) : Provider where
  name
  provision := .putAll values fun
    | .ok () => .done
    | .error e => .fail e

/-- What a provision works on, and the time it has taken. -/
structure Workplace where
  bindings : Bindings
  world : World
  micros : Nat := 0

namespace Provision

/-- Takes the steps of a provision. -/
def run : Provision → Workplace → Except ScopeError Unit × Workplace
  | .done, s => (.ok (), s)
  | .fail e, s => (.error e, s)
  | .read next, s => (next s.bindings).run s
  | .put name value next, s =>
    match s.bindings.put name value with
    | .ok (previous, bindings) => (next (.ok previous)).run { s with bindings }
    | .error e => (next (.error e)).run s
  | .putAll values next, s =>
    match s.bindings.putAll values with
    | .ok bindings => (next (.ok ())).run { s with bindings }
    | .error e => (next (.error e)).run s
  | .take name next, s =>
    match s.bindings.take name with
    | .ok (previous, bindings) => (next (.ok previous)).run { s with bindings }
    | .error e => (next (.error e)).run s
  | .acquire helper q next, s =>
    let (found, world) := s.world.acquire helper q
    (next found).run { s with world }
  | .pause micros next, s => next.run { s with micros := s.micros + micros }

end Provision

end ScriptHost
