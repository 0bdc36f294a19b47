import ScriptHost.Data.Outline
import ScriptHost.OrderedMap
import ScriptHost.Surroundings

/-!
# Bindings

The names that a script sees and what they stand for: plain data, the objects of a request, text
channels, a logger, the helper of the running script, or an object that scripts can only pass on.
Names keep the order in which they were first bound.
-/

namespace ScriptHost

/-- The helper of one execution. -/
structure HelperId where
  index : Nat
  deriving DecidableEq, Repr

inductive BindingValue where
  | data (d : Data)
  | request (r : RequestId)
  | response (r : ResponseId)
  | resource (r : ResourceId)
  | resolver (r : ResolverId)
  | reader (r : Reader)
  | writer (w : Writer)
  | logger (script : String)
  | helper (h : HelperId)
  | object (held : String)
  deriving Inhabited

namespace BindingValue

/-- The word for the kind of a value. A helper is an object like others. -/
def kind : BindingValue → String
  | .data _ => "data"
  | .request _ => "request"
  | .response _ => "response"
  | .resource _ => "resource"
  | .resolver _ => "resolver"
  | .reader _ => "reader"
  | .writer _ => "writer"
  | .logger _ => "logger"
  | .helper _ | .object _ => "object"

def asData? : BindingValue → Option Data
  | .data d => some d
  | _ => none

def asBool? (v : BindingValue) : Option Bool :=
  v.asData?.bind Data.asBool?

def asText? (v : BindingValue) : Option String :=
  v.asData?.bind Data.asText?

def asRequest? : BindingValue → Option RequestId
  | .request r => some r
  | _ => none

def asResponse? : BindingValue → Option ResponseId
  | .response r => some r
  | _ => none

def asResource? : BindingValue → Option ResourceId
  | .resource r => some r
  | _ => none

def asResolver? : BindingValue → Option ResolverId
  | .resolver r => some r
  | _ => none

def asReader? : BindingValue → Option Reader
  | .reader r => some r
  | _ => none

def asWriter? : BindingValue → Option Writer
  | .writer w => some w
  | _ => none

def asHelper? : BindingValue → Option HelperId
  | .helper h => some h
  | _ => none

def asObject? : BindingValue → Option String
  | .object held => some held
  | _ => none

/-- A value described with its kind. -/
def outline (s : Surroundings) : BindingValue → String
  | .data d => "Data(" ++ d.outline ++ ")"
  | .request r => "Request(" ++ Text.quoted (s.request r).path ++ ")"
  | .resource r => "Resource(" ++ Text.quoted (s.resource r).path ++ ")"
  | .logger script => "Logger(" ++ Text.quoted script ++ ")"
  | v => v.kind ++ "(..)"

end BindingValue

abbrev Bindings := OrderedMap String BindingValue

namespace Bindings

def data? (b : Bindings) (name : String) : Option Data :=
  (b.get? name).bind BindingValue.asData?

/-- Whether a name stands for the truth value true. -/
def flag (b : Bindings) (name : String) : Bool :=
  ((b.get? name).bind BindingValue.asBool?).getD false

def outline (s : Surroundings) (b : Bindings) : String :=
  let entries := b.entries.map fun e => Text.quoted e.1 ++ ": " ++ e.2.outline s
  "Bindings \x7b entries: \x7b" ++ String.intercalate ", " entries ++ "\x7d \x7d"

end Bindings

end ScriptHost
