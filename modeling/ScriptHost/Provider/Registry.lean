import ScriptHost.Provider
import ScriptHost.Text.Ascii

/-!
# The provider registry

Providers are registered for contexts, either for every engine or for some languages. Until the
registry is activated registrations wait; activation enters them in their order. In one context the
providers for every engine go first, then those for languages that the engine is compatible with,
then those for names of the engine itself; within each of these lower ranks go first, and newer
registrations of one rank.
-/

namespace ScriptHost

structure ProviderRegistration where
  rank : Int
  contexts : List String
  languages : List String

/-- A registered provider in a context. -/
structure ProviderEntry where
  id : Nat
  rank : Int
  languages : List String
  provider : Provider

namespace ProviderEntry

/-- Whether `a` goes before `b` or stands level with it. -/
def le (a b : ProviderEntry) : Bool :=
  a.rank < b.rank || (a.rank = b.rank && b.id ≤ a.id)

/-- Whether one of the languages of the provider is among some names. -/
def keyedBy (e : ProviderEntry) (names : List String) : Bool :=
  e.languages.any fun l => names.any fun n => Text.sameName n l

end ProviderEntry

/-- The providers of one context: those for every engine, and those for some languages. -/
structure ContextProviders where
  generic : List ProviderEntry
  keyed : List ProviderEntry

namespace ContextProviders

def empty : ContextProviders := ⟨[], []⟩

def insert (c : ContextProviders) (e : ProviderEntry) : ContextProviders :=
  if e.languages.isEmpty then
    { c with generic := (c.generic ++ [e]).mergeSort ProviderEntry.le }
  else
    { c with keyed := (c.keyed ++ [e]).mergeSort ProviderEntry.le }

def remove (c : ContextProviders) (id : Nat) : ContextProviders :=
  ⟨c.generic.filter (·.id != id), c.keyed.filter (·.id != id)⟩

def isEmpty (c : ContextProviders) : Bool :=
  c.generic.isEmpty && c.keyed.isEmpty

/-- The entries for an engine with some names and compatible languages, in order. -/
def entriesFor (c : ContextProviders) (names compatible : List String) : List ProviderEntry :=
  c.generic ++ (c.keyed.filter fun e => !e.keyedBy names && e.keyedBy compatible) ++
    c.keyed.filter fun e => e.keyedBy names

def holds (c : ContextProviders) (id : Nat) : Bool :=
  c.generic.any (·.id == id) || c.keyed.any (·.id == id)

end ContextProviders

structure ProviderRegistry where
  active : Bool
  /-- Registrations that wait for activation. -/
  pending : List (Nat × ProviderRegistration × Provider)
  contexts : OrderedMap String ContextProviders
  nextId : Nat

namespace ProviderRegistry

def empty : ProviderRegistry := ⟨false, [], .empty, 0⟩

/-- The context of registrations that name none. -/
def defaultContext : String := "request"

/-- Enters a provider in each of its contexts. -/
def enter (contexts : OrderedMap String ContextProviders) (id : Nat) (r : ProviderRegistration)
    (p : Provider) : OrderedMap String ContextProviders :=
  let names := if r.contexts.isEmpty then [defaultContext] else r.contexts
  names.foldl (fun contexts name =>
    contexts.insert name (((contexts.get? name).getD .empty).insert ⟨id, r.rank, r.languages, p⟩))
    contexts

/-- Registers a provider, and gives its number. -/
def register (reg : ProviderRegistry) (p : Provider) (r : ProviderRegistration) :
    Nat × ProviderRegistry :=
  let id := reg.nextId
  let reg := { reg with nextId := id + 1 }
  if reg.active then (id, { reg with contexts := enter reg.contexts id r p })
  else (id, { reg with pending := reg.pending ++ [(id, r, p)] })

/-- Removes a registration; whether there was one. A context without providers goes. -/
def unregister (reg : ProviderRegistry) (id : Nat) : Bool × ProviderRegistry :=
  if reg.pending.any (·.1 == id) then
    (true, { reg with pending := reg.pending.filter (·.1 != id) })
  else
    let found := reg.contexts.entries.any fun c => c.2.holds id
    let contexts := reg.contexts.mapValues fun c => c.remove id
    (found, { reg with contexts := contexts.filter fun _ c => !c.isEmpty })

/-- Enters the waiting registrations, and gives their number. -/
def activate (reg : ProviderRegistry) : Nat × ProviderRegistry :=
  if reg.active then (0, reg)
  else
    let contexts := reg.pending.foldl (fun cs (id, r, p) => enter cs id r p) reg.contexts
    (reg.pending.length, { reg with active := true, pending := [], contexts })

/-- The providers for a context and an engine, in the order in which they run. -/
def providersFor (reg : ProviderRegistry) (context : String) (names compatible : List String) :
    List Provider :=
  match reg.contexts.get? context with
  | none => []
  | some c => (c.entriesFor names compatible).map ProviderEntry.provider

/-- The contexts with a provider, in the order of their names. -/
def contextNames (reg : ProviderRegistry) : List String :=
  reg.contexts.keys.mergeSort fun a b => a ≤ b

end ProviderRegistry

end ScriptHost
