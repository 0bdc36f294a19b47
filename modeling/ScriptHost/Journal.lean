import ScriptHost.Engine

/-!
# The journal

Everything that is done to the outside, in order: text written and flushed, resources opened,
engines made, compilations begun, services acquired and released, progress reported. What an output
holds is read off the journal.
-/

namespace ScriptHost

inductive Event where
  | write (target : Writer) (text : Bytes) (fault : Option String)
  | flush (on : Writer) (fault : Option String)
  | openResource (r : ResourceId)
  | makeEngine (factory : FactoryId) (registration : Nat)
  | compile (factory : FactoryId)
  /-- A helper holds some services from now on. -/
  | acquire (helper : HelperId) (services : List Nat)
  /-- A helper gives a service back; whether the directory takes it. -/
  | release (helper : HelperId) (service : Nat) (taken : Bool)
  | progress (line : String)
  deriving DecidableEq

abbrev Journal := List Event

namespace Journal

/-- The bytes that an output has taken. -/
def contents (j : Journal) (output : String) : Bytes :=
  j.flatMap fun
    | .write (.output name) text none => if name = output then text else []
    | _ => []

/-- How often an output was flushed without fault. -/
def flushes (j : Journal) (output : String) : Nat :=
  j.countP fun
    | .flush (.output name) none => name == output
    | _ => false

/-- The services that a helper has acquired, in order. -/
def acquiredBy (j : Journal) (h : HelperId) : List Nat :=
  j.flatMap fun
    | .acquire helper services => if helper = h then services else []
    | _ => []

/-- The services that a helper has given back, in order. -/
def releasedBy (j : Journal) (h : HelperId) : List Nat :=
  j.filterMap fun
    | .release helper id _ => if helper = h then some id else none
    | _ => none

/-- The services that the directory has taken back, in order. -/
def released (j : Journal) : List Nat :=
  j.filterMap fun
    | .release _ id true => some id
    | _ => none

/-- The lines reported as progress, in order. -/
def progress (j : Journal) : List String :=
  j.filterMap fun
    | .progress line => some line
    | _ => none

/-- How many engines a factory has made, and how many compilations they have begun. -/
def counts (j : Journal) (factory : FactoryId) : Nat × Nat :=
  (j.countP fun
      | .makeEngine f _ => f == factory
      | _ => false,
    j.countP fun
      | .compile f => f == factory
      | _ => false)

end Journal

end ScriptHost
