import ScriptHost.OrderedMap
import ScriptHost.Service

/-!
# The service cache

Remembers what a directory answered, until a change of the capability is reported. A look-up that
misses runs in three steps, since anything may happen while the directory is asked: `remembered`
notes the epoch, the directory answers, and `settle` keeps the answer only if no change has been
reported since the epoch was noted.
-/

namespace ScriptHost

structure ServiceCache where
  entries : OrderedMap Query (List Service)
  /-- The number of changes reported so far. -/
  epoch : Nat

namespace ServiceCache

def empty : ServiceCache := ⟨.empty, 0⟩

/-- Forgets what is known of a capability. -/
def invalidate (c : ServiceCache) (capability : Capability) : ServiceCache :=
  ⟨c.entries.filter fun q _ => q.capability != capability, c.epoch + 1⟩

/-- Forgets everything. -/
def clear (c : ServiceCache) : ServiceCache :=
  ⟨.empty, c.epoch + 1⟩

/-- What is remembered for a query, or the epoch in which it is missing. -/
def remembered (c : ServiceCache) (q : Query) : List Service ⊕ Nat :=
  match c.entries.get? q with
  | some services => .inl services
  | none => .inr c.epoch

/-- Ends a look-up that missed in an epoch, with the directory's answer. What has been remembered
meanwhile counts; a failure is an empty list and is not remembered. -/
def settle (c : ServiceCache) (q : Query) (epoch : Nat) (answer : Answer) :
    List Service × ServiceCache :=
  match answer with
  | .error _ => ([], c)
  | .ok services =>
    let services := Service.ordered q.capability services
    match c.entries.get? q with
    | some known => (known, c)
    | none =>
      if c.epoch = epoch then (services, { c with entries := c.entries.insert q services })
      else (services, c)

end ServiceCache

end ScriptHost
