import ScriptHost.Engine
import ScriptHost.Engine.Association

/-!
# Registered engines

What is known of an engine from the moment it is registered: what its factory declared then, what
the registration said instead, where the registration came from, and how it ranks among others.
-/

namespace ScriptHost

inductive Origin where
  | platform
  | package (name : String)
  | dynamic
  deriving DecidableEq, Repr

def Origin.display : Origin → String
  | .platform => "platform"
  | .package name => "package:" ++ name
  | .dynamic => "dynamic"

def Origin.outline : Origin → String
  | .platform => "Platform"
  | .package name => "Package(" ++ Text.quoted name ++ ")"
  | .dynamic => "Dynamic"

/-- How a registration ranks: higher ranks come first, and earlier registrations of one rank. -/
structure Priority where
  rank : Int
  id : Nat
  deriving DecidableEq, Repr

namespace Priority

def compare (a b : Priority) : Ordering :=
  (Ord.compare b.rank a.rank).then (Ord.compare a.id b.id)

/-- Whether `a` comes before `b` or ranks the same. -/
def le (a b : Priority) : Bool :=
  b.rank < a.rank || (a.rank = b.rank && a.id ≤ b.id)

def outline (p : Priority) : String :=
  "PriorityKey \x7b rank: " ++ toString p.rank ++ ", origin_id: " ++ toString p.id ++ " \x7d"

end Priority

/-- What a registration may say instead of what the factory declares. -/
structure Properties where
  rank : Int := 0
  names : Option (List String) := none
  extensions : Option (List String) := none
  mimeTypes : Option (List String) := none
  compatibleLanguages : Option (List String) := none

inductive RegisterError where
  | emptyEngineName
  | noAssociations (engine : String)
  | emptyPackageName
  deriving DecidableEq, Repr

def RegisterError.message : RegisterError → String
  | .emptyEngineName => "engine factory declares an empty engine name"
  | .noAssociations engine =>
    "engine " ++ Text.quoted engine ++ " declares no names, extensions or mime types"
  | .emptyPackageName => "package name must not be empty"

structure Descriptor where
  factory : Factory
  engineName : String
  engineVersion : String
  names : List String
  extensions : List String
  mimeTypes : List String
  languageName : String
  languageVersion : String
  compatibleLanguages : List String
  supportsCompilation : Bool
  origin : Origin
  priority : Priority

namespace Descriptor

/-- The number of the registration. -/
def id (d : Descriptor) : Nat := d.priority.id

/-- Takes down what a factory declares, with what the registration says instead. -/
def capture (f : Factory) (origin : Origin) (id : Nat) (p : Properties) :
    Except RegisterError Descriptor :=
  let engineName := Text.trim f.engineName
  let names := p.names.getD f.names
  let extensions := Association.normalize (p.extensions.getD f.extensions)
  let mimeTypes := Association.normalize (p.mimeTypes.getD f.mimeTypes)
  if engineName = "" then .error .emptyEngineName
  else if names = [] ∧ extensions = [] ∧ mimeTypes = [] then .error (.noAssociations engineName)
  else .ok {
    factory := f
    engineName
    engineVersion := f.engineVersion
    names
    extensions
    mimeTypes
    languageName := f.languageName
    languageVersion := f.languageVersion
    compatibleLanguages := p.compatibleLanguages.getD f.compatibleLanguages
    supportsCompilation := f.supportsCompilation
    origin
    priority := ⟨p.rank, id⟩ }

/-- The keys of one kind that an engine claims. -/
def claims (d : Descriptor) : Association → List String
  | .extension => d.extensions
  | .name => d.names
  | .mimeType => d.mimeTypes

/-- Whether a language is the engine's own or goes by one of its names. -/
def matchesLanguage (d : Descriptor) (language : String) : Bool :=
  Text.sameName d.languageName language || d.names.any fun n => Text.sameName n language

/-- Engine name and number in short. -/
def brief (d : Descriptor) : String :=
  d.engineName ++ "#" ++ toString d.id

def outline (d : Descriptor) : String :=
  "EngineDescriptor \x7b engine_name: " ++ Text.quoted d.engineName ++ ", extensions: " ++
    Text.quotedList d.extensions ++ ", origin: " ++ d.origin.outline ++ ", key: " ++
    d.priority.outline ++ ", .. \x7d"

end Descriptor

end ScriptHost
