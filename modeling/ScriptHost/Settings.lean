import ScriptHost.Path.Fault
import ScriptHost.Text.Utf8
import ScriptHost.Toml.Document

/-!
# Settings

What a host of scripts can be told in its settings file. Every field has a default; a name that is
not known is an error. A section may also be given as the list of its fields in their order.
-/

namespace ScriptHost

structure CacheSettings where
  capacity : Nat := 65536
  additionalExtensions : List String := []
  deriving DecidableEq

structure BindingSettings where
  slowProviderMicros : Nat := 1000
  defaultContext : String := "request"
  deriving DecidableEq

structure WorkerSettings where
  shutdownMillis : Nat := 500
  deriving DecidableEq

structure Settings where
  cache : CacheSettings := {}
  bindings : BindingSettings := {}
  worker : WorkerSettings := {}
  deriving DecidableEq

/-- Why settings cannot be had. -/
inductive SettingsError where
  | malformed
  | unreadable (path : String) (fault : Path.Fault)
  deriving DecidableEq

/-- The wording; what is malformed is not said. -/
def SettingsError.message? : SettingsError → Option String
  | .malformed => none
  | .unreadable path fault => some ("I/O error reading " ++ path ++ ": " ++ fault.message)

namespace Settings

/-- How the fields of a section are found by name, if it has no others than those listed. -/
def fieldsOf? (names : List String) : Toml.Value → Option (String → Option Toml.Value)
  | .table fields =>
    if fields.all fun f => names.contains f.1 then
      some fun name => (fields.find? fun f => f.1 == name).map Prod.snd
    else none
  | .list items => some fun name => (names.idxOf? name).bind fun i => items[i]?
  | _ => none

/-- A number of 64 bits. -/
def natural? : Toml.Value → Option Nat
  | .int (some n) => if 0 ≤ n ∧ n < UInt64.size then some n.toNat else none
  | _ => none

def text? : Toml.Value → Option String
  | .text s => some s
  | _ => none

def texts? : Toml.Value → Option (List String)
  | .list items => items.mapM text?
  | _ => none

/-- The field of a section, or its default. -/
def fieldOr {α : Type} (default : α) (read? : Toml.Value → Option α) (field : Option Toml.Value) :
    Option α :=
  match field with
  | none => some default
  | some v => read? v

def cache? (v : Toml.Value) : Option CacheSettings := do
  let field ← fieldsOf? ["capacity", "additional_extensions"] v
  let capacity ← fieldOr 65536 natural? (field "capacity")
  let extensions ← fieldOr [] texts? (field "additional_extensions")
  return ⟨capacity, extensions⟩

def bindings? (v : Toml.Value) : Option BindingSettings := do
  let field ← fieldsOf? ["slow_provider_threshold_us", "default_context"] v
  let slow ← fieldOr 1000 natural? (field "slow_provider_threshold_us")
  let context ← fieldOr "request" text? (field "default_context")
  return ⟨slow, context⟩

def worker? (v : Toml.Value) : Option WorkerSettings := do
  let field ← fieldsOf? ["shutdown_timeout_ms"] v
  return ⟨← fieldOr 500 natural? (field "shutdown_timeout_ms")⟩

/-- Reads the text of a settings file. -/
def parse? (source : String) : Option Settings := do
  let field ← fieldsOf? ["cache", "bindings", "worker"] (.table (← Toml.parse? source))
  let cache ← fieldOr {} cache? (field "cache")
  let bindings ← fieldOr {} bindings? (field "bindings")
  let worker ← fieldOr {} worker? (field "worker")
  return ⟨cache, bindings, worker⟩

/-- What stands behind the fields of a section is not looked at, as long as it has the outline of a
value. -/
example : parse? "worker = [5, 1_b]" = some (.mk {} {} ⟨5⟩) ∧ parse? "worker = [1_b]" = none ∧
    parse? "worker = [5, 2021-02-29]" = none ∧ parse? "worker = [5, 1_]" = none ∧
    parse? "worker = [+_5]" = none := by
  decide +kernel

/-- Line ends stay as they are written. -/
example : (parse? "bindings = [7, \"\"\"a\r\nb\"\"\"]").map (·.bindings.defaultContext) =
    some "a\r\nb" := by
  decide +kernel

/-- Reads a settings file, given the outcome of opening it. -/
def load (path : String) (opened : Except Path.Fault Bytes) : Except SettingsError Settings :=
  match opened with
  | .error fault => .error (.unreadable path fault)
  | .ok bytes =>
    match Text.decode? bytes with
    | none => .error (.unreadable path .notUtf8)
    | some source =>
      match parse? source with
      | none => .error .malformed
      | some settings => .ok settings

end Settings

end ScriptHost
