import ScriptHost.Text.Quoted

/-!
# Services

What a service directory lists: services with a capability and a ranking. Higher rankings come
first, and lower numbers among equal rankings.
-/

namespace ScriptHost

/-- What a service can do. -/
structure Capability where
  name : String
  deriving DecidableEq, Repr

structure Service where
  id : Nat
  ranking : Int
  capability : Capability
  label : String
  deriving DecidableEq, Repr

namespace Service

/-- Whether `a` comes before `b` or stands level with it. -/
def le (a b : Service) : Bool :=
  b.ranking < a.ranking || (a.ranking = b.ranking && a.id ≤ b.id)

/-- The services of a capability in a directory's answer, in order. -/
def ordered (capability : Capability) (answer : List Service) : List Service :=
  (answer.filter fun s => s.capability = capability).mergeSort le

end Service

/-- What can be asked of a directory. -/
structure Query where
  capability : Capability
  filter : Option String := none
  deriving DecidableEq, Repr

inductive DirectoryError where
  | invalidFilter (filter message : String)
  | unavailable
  deriving DecidableEq, Repr

def DirectoryError.message : DirectoryError → String
  | .invalidFilter filter message =>
    "invalid service filter " ++ Text.quoted filter ++ ": " ++ message
  | .unavailable => "service directory unavailable"

/-- The outcome of asking a directory. -/
abbrev Answer := Except DirectoryError (List Service)

end ScriptHost
