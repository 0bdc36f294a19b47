import ScriptHost.Binding
import ScriptHost.Binding.Reserved
import ScriptHost.Scope.Error

/-!
# Protected writing

How providers write bindings: any name but the reserved ones. A write that names a reserved one
fails and changes nothing, also when it names others beside it.
-/

namespace ScriptHost.Bindings

/-- Binds a name, and gives what it stood for before. -/
def put (b : Bindings) (name : String) (value : BindingValue) :
    Except ScopeError (Option BindingValue × Bindings) :=
  if isReserved name then .error (.reservedKey name)
  else .ok (b.get? name, b.insert name value)

/-- Binds all names of a map, or none of them. -/
def putAll (b values : Bindings) : Except ScopeError Bindings :=
  match values.keys.find? isReserved with
  | some name => .error (.reservedKey name)
  | none => .ok (b.insertAll values.entries)

/-- Unbinds a name, and gives what it stood for. -/
def take (b : Bindings) (name : String) : Except ScopeError (Option BindingValue × Bindings) :=
  if isReserved name then .error (.reservedKey name)
  else .ok (b.get? name, b.erase name)

end ScriptHost.Bindings
