import ScriptHost.Engine.Snapshot

/-!
# The engine registry

Engines are registered one by one, by the platform or dynamically, or together as a package. Every
operation that changes who is registered publishes a new snapshot, numbered one higher than the
last, and tells it to everyone who subscribed, in the order of subscription. An operation that fails
or changes nothing publishes nothing.
-/

namespace ScriptHost

/-- Who is registered, by where the registration came from. -/
structure Members where
  platform : List Descriptor
  packages : OrderedMap String (List Descriptor)
  dynamic : List Descriptor

namespace Members

def empty : Members := ⟨[], .empty, []⟩

def all (m : Members) : List Descriptor :=
  m.platform ++ m.packages.entries.flatMap Prod.snd ++ m.dynamic

/-- Withdraws the registrations with the given numbers. A package that loses its last engine goes.
-/
def withdraw (m : Members) (ids : List Nat) : Members :=
  let keep := List.filter fun (d : Descriptor) => !ids.contains d.id
  { platform := keep m.platform
    packages := (m.packages.mapValues keep).filter fun _ engines => !engines.isEmpty
    dynamic := keep m.dynamic }

def holds (m : Members) (id : Nat) : Bool :=
  m.all.any fun d => d.id == id

end Members

/-- A snapshot and those to be told of it, in order. -/
structure Publication (ℓ : Type) where
  snapshot : Snapshot
  recipients : List ℓ

structure EngineRegistry (ℓ : Type) where
  members : Members
  snapshot : Snapshot
  listeners : List (Nat × ℓ)
  nextId : Nat
  nextListener : Nat

/-- What can be asked of a registry about its members. -/
inductive Registration where
  | platform (factory : Factory) (rank : Int)
  | dynamic (factory : Factory) (properties : Properties)
  | package (name : String) (engines : List (Factory × Int))
  | removePackage (name : String)
  | unregister (id : Nat)
  | unregisterFactory (factory : FactoryId)

/-- What a registry answers: the numbers of the new registrations, why there are none, or whether
anything was withdrawn. -/
inductive Reply where
  | registered (ids : List Nat)
  | refused (e : RegisterError)
  | withdrawn (any : Bool)
  deriving DecidableEq

namespace EngineRegistry

variable {ℓ : Type}

def empty : EngineRegistry ℓ := ⟨.empty, .empty, [], 1, 1⟩

/-- Makes the members known: the next generation, to all who listen. -/
def publish (r : EngineRegistry ℓ) (members : Members) : EngineRegistry ℓ × Publication ℓ :=
  let snapshot := Snapshot.build (r.snapshot.generation + 1) members.all
  ({ r with members, snapshot }, ⟨snapshot, r.listeners.map Prod.snd⟩)

/-- Takes down a list of engines, one number each, up to the first that is refused. The numbers of
all that were tried are used up. -/
def captureAll (origin : Origin) : Nat → List (Factory × Properties) →
    Except RegisterError (List Descriptor) × Nat
  | next, [] => (.ok [], next)
  | next, (f, p) :: rest =>
    match Descriptor.capture f origin next p with
    | .error e => (.error e, next + 1)
    | .ok d =>
      let (result, next) := captureAll origin (next + 1) rest
      (result.map (d :: ·), next)

/-- Registers engines of one origin; `place` says where among the members they go. -/
def enroll (r : EngineRegistry ℓ) (origin : Origin) (engines : List (Factory × Properties))
    (place : Members → List Descriptor → Members) :
    Reply × EngineRegistry ℓ × Option (Publication ℓ) :=
  let (result, nextId) := captureAll origin r.nextId engines
  let r := { r with nextId }
  match result with
  | .error e => (.refused e, r, none)
  | .ok descriptors =>
    let (r, publication) := r.publish (place r.members descriptors)
    (.registered (descriptors.map Descriptor.id), r, some publication)

/-- Withdraws what is given by numbers, if any of it is registered. -/
def withdraw (r : EngineRegistry ℓ) (ids : List Nat) :
    Bool × EngineRegistry ℓ × Option (Publication ℓ) :=
  if ids.any r.members.holds then
    let (r, publication) := r.publish (r.members.withdraw ids)
    (true, r, some publication)
  else (false, r, none)

/-- Withdraws a package, if it is registered. -/
def dropPackage (r : EngineRegistry ℓ) (name : String) :
    Bool × EngineRegistry ℓ × Option (Publication ℓ) :=
  if r.members.packages.contains name then
    let members := { r.members with packages := r.members.packages.erase name }
    let (r, publication) := r.publish members
    (true, r, some publication)
  else (false, r, none)

/-- The numbers under which engines of a factory are registered. -/
def idsOf (r : EngineRegistry ℓ) (factory : FactoryId) : List Nat :=
  (r.snapshot.engines.filter fun d => d.factory.id == factory).map Descriptor.id

/-- Carries out what is asked of the registry. Registering a package replaces the engines that it
had; with no engines, that withdraws it. -/
def apply (r : EngineRegistry ℓ) : Registration → Reply × EngineRegistry ℓ × Option (Publication ℓ)
  | .platform f rank =>
    r.enroll .platform [(f, { rank })] fun m ds => { m with platform := m.platform ++ ds }
  | .dynamic f p =>
    r.enroll .dynamic [(f, p)] fun m ds => { m with dynamic := m.dynamic ++ ds }
  | .package name engines =>
    let name := Text.trim name
    if name = "" then (.refused .emptyPackageName, r, none)
    else if engines.isEmpty then
      let (_, r, publication) := r.dropPackage name
      (.registered [], r, publication)
    else
      r.enroll (.package name) (engines.map fun e => (e.1, { rank := e.2 })) fun m ds =>
        { m with packages := m.packages.insert name ds }
  | .removePackage name =>
    let (any, r, publication) := r.dropPackage name
    (.withdrawn any, r, publication)
  | .unregister id =>
    let (any, r, publication) := r.withdraw [id]
    (.withdrawn any, r, publication)
  | .unregisterFactory factory =>
    let (any, r, publication) := r.withdraw (r.idsOf factory)
    (.withdrawn any, r, publication)

/-- Adds a listener, and gives its number. -/
def subscribe (r : EngineRegistry ℓ) (listener : ℓ) : Nat × EngineRegistry ℓ :=
  (r.nextListener, { r with
    listeners := r.listeners ++ [(r.nextListener, listener)]
    nextListener := r.nextListener + 1 })

/-- Removes a listener; whether there was one. -/
def unsubscribe (r : EngineRegistry ℓ) (id : Nat) : Bool × EngineRegistry ℓ :=
  let listeners := r.listeners.filter fun l => l.1 != id
  (listeners.length != r.listeners.length, { r with listeners })

end EngineRegistry

end ScriptHost
