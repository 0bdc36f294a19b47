import ScriptHost.Host

/-!
# Summaries

What a host tells about itself as plain data: its faults by their kind and wording, the engines it
knows, and how a shutdown went.
-/

namespace ScriptHost

/-- A fault by its kind and its wording. -/
def Data.ofFault (kind message : String) (more : List (String × Data)) : Data :=
  .ofFields ([("error", .text kind), ("message", .text message)] ++ more)

def Data.ofTexts (texts : List String) : Data :=
  .list (texts.map .text)

/-- A value that may be missing; a missing one is null. -/
def Data.ofOption {α : Type} (f : α → Data) : Option α → Data
  | some a => f a
  | none => .null

def EngineError.kind : EngineError → String
  | .syntaxFault _ _ => "syntax"
  | .failure _ => "runtime"
  | .unsupported _ => "unsupported"
  | .io _ => "io"

def EngineError.summary (e : EngineError) : Data :=
  .ofFault e.kind e.message (match e with
    | .syntaxFault message line => [("line", .int line), ("detail", .text message)]
    | _ => [])

def RegisterError.kind : RegisterError → String
  | .emptyEngineName => "empty_engine_name"
  | .noAssociations _ => "no_associations"
  | .emptyPackageName => "empty_package_name"

def RegisterError.summary (e : RegisterError) : Data :=
  .ofFault e.kind e.message []

def ScopeError.kind : ScopeError → String
  | .reservedKey _ => "reserved_key"
  | .inconsistentHelper _ => "inconsistent_helper"
  | .missingResponse => "missing_response"
  | .provider _ _ => "provider"

def ScopeError.summary (e : ScopeError) : Data :=
  .ofFault e.kind e.message []

def EvaluationError.summary (e : EvaluationError) : Data :=
  .ofFault "evaluation" e.display [("script", .text e.script), ("detail", .text e.message),
    ("resource", .ofOption .text e.resource), ("cause", .ofOption EngineError.summary e.cause)]

def ExecuteError.summary : ExecuteError → Data
  | .scope e => e.summary
  | .evaluation e => e.summary

def ShutdownReport.summary (r : ShutdownReport) : Data :=
  .ofFields [("drained", .bool r.drained), ("pending", .int r.pending),
    ("panicked", .int r.panicked)]

/-- An engine with its associations, its origin and its place in the order of precedence. The number
of its registration is also the handle to withdraw it with. -/
def Descriptor.summary (d : Descriptor) : Data :=
  .ofFields [("engine_name", .text d.engineName), ("engine_version", .text d.engineVersion),
    ("names", .ofTexts d.names), ("extensions", .ofTexts d.extensions),
    ("mime_types", .ofTexts d.mimeTypes), ("language_name", .text d.languageName),
    ("language_version", .text d.languageVersion),
    ("compatible_languages", .ofTexts d.compatibleLanguages),
    ("compiles", .bool d.supportsCompilation), ("origin", .text d.origin.display),
    ("rank", .int d.priority.rank), ("id", .int d.id), ("handle", .int d.id)]

end ScriptHost
