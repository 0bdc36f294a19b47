import ScriptHost.Binding
import ScriptHost.Service

/-!
# Engines

A script engine runs source text within a context: the bindings, an output, an output for errors and
a reader. All it can do there is write, flush, read and acquire services through a helper, one step
after the other; a `Session` is such a course of steps, each going on with the outcome of the one
before. It leaves the context as it likes. An engine may also compile source text once for many
runs, and call functions of what it has run.
-/

namespace ScriptHost

inductive EngineError where
  | syntaxFault (message : String) (line : Nat)
  | failure (message : String)
  | unsupported (message : String)
  | io (message : String)
  deriving DecidableEq, Repr

namespace EngineError

/-- A message under a heading. -/
def headed (heading message : String) : String :=
  heading ++ ": " ++ message

def message : EngineError → String
  | .syntaxFault message line => headed ("syntax error at line " ++ toString line) message
  | .failure message => message
  | .unsupported message => headed "unsupported operation" message
  | .io message => message

/-- The fault of reading bytes as text that are not UTF-8. -/
def notText : EngineError := .io "stream did not contain valid UTF-8"

end EngineError

/-- Reads a source to its end as text. -/
def Source.text (s : Source) : Except EngineError String :=
  match s.fault, Text.decode? s.bytes with
  | some fault, _ => .error (.io fault)
  | none, some text => .ok text
  | none, none => .error .notText

/-- Everything a script sees. -/
structure Context where
  bindings : Bindings
  output : Writer
  errors : Writer
  input : Reader

/-- A course of steps on the channels and helpers of a context, and its outcome. -/
inductive Session (α : Type) where
  | done (outcome : Except EngineError α)
  | write (target : Writer) (text : Bytes) (next : Except String Unit → Session α)
  | flush (on : Writer) (next : Except String Unit → Session α)
  | readText (from_ : Reader) (next : Except String String → Session α)
  | acquire (helper : HelperId) (q : Query) (next : List Service → Session α)

namespace Session

variable {α : Type}

def fail (e : EngineError) : Session α := .done (.error e)

/-- Writes a text and goes on unless that fails. -/
def writing (target : Writer) (text : String) (next : Session α) : Session α :=
  .write target (Text.encode text) fun
    | .ok () => next
    | .error fault => fail (.io fault)

/-- Goes on with the result of a session, unless it failed. -/
def andThen {β : Type} : Session α → (α → Session β) → Session β
  | .done (.ok a), k => k a
  | .done (.error e), _ => fail e
  | .write target text next, k => .write target text fun r => (next r).andThen k
  | .flush on next, k => .flush on fun r => (next r).andThen k
  | .readText from_ next, k => .readText from_ fun r => (next r).andThen k
  | .acquire helper q next, k => .acquire helper q fun found => (next found).andThen k

/-- Turns the result of a session into another one. -/
def map {β : Type} (f : α → β) (s : Session α) : Session β :=
  s.andThen fun a => .done (.ok (f a))

end Session

/-- A compiled script, with the registration whose engine compiled it. -/
structure Program where
  compiledBy : Nat
  run : Context → Session Data

/-- What a script comes to: its value, and the context as the script leaves it. -/
structure Evaluated where
  value : Data
  context : Context

structure Engine where
  evaluate : Source → Context → Session Evaluated
  /-- What compiles source text into its runs, if the engine can. -/
  compile? : Option (Source → Except EngineError (Context → Session Data)) := none
  /-- What calls a function of a script, in the context that the script has left, if the engine
  can. -/
  invoke? : Option (Context → String → List Data → Session Data) := none

/-- A factory of engines: the one that every host has, or one that is given to it. -/
inductive FactoryId where
  | builtIn
  | given (name : String)
  deriving DecidableEq, Repr

/-- A source of engines of one kind, and what it declares about them. -/
structure Factory where
  id : FactoryId
  engineName : String
  engineVersion : String := ""
  names : List String
  extensions : List String
  mimeTypes : List String := []
  languageName : String
  languageVersion : String := ""
  compatibleLanguages : List String := []
  supportsCompilation : Bool := false
  /-- Source text that calls a method with arguments, if the language has a way to write that. -/
  callText? : String → List Data → Option String := fun _ _ => none
  engine : Engine

end ScriptHost
