import ScriptHost.Data
import ScriptHost.Text.Quoted

/-!
# Scripts

How a script is known: by its path and by the engine that runs it. Whatever it logs carries its
path.
-/

namespace ScriptHost

structure ScriptIdentity where
  path : String
  engine : String
  deriving DecidableEq, Repr

namespace ScriptIdentity

def display (s : ScriptIdentity) : String :=
  s.path ++ " (" ++ s.engine ++ ")"

def toData (s : ScriptIdentity) : Data :=
  .ofFields [("path", .text s.path), ("engine", .text s.engine)]

end ScriptIdentity

inductive LogLevel where
  | error
  | warn
  | info
  | debug
  | trace
  deriving DecidableEq, Repr

def LogLevel.name : LogLevel → String
  | .error => "ERROR"
  | .warn => "WARN"
  | .info => "INFO"
  | .debug => "DEBUG"
  | .trace => "TRACE"

structure LogLine where
  level : LogLevel
  script : String
  message : String
  deriving DecidableEq, Repr

/-- The log of the script at a path. -/
structure Logger where
  script : String
  deriving DecidableEq, Repr

namespace Logger

def log (l : Logger) (level : LogLevel) (message : String) : LogLine :=
  ⟨level, l.script, message⟩

def outline (l : Logger) : String :=
  "ScriptLogger \x7b script: " ++ Text.quoted l.script ++ " \x7d"

end Logger

end ScriptHost
