import ScriptHost.Engine

/-!
# Sample engines

Four small engines that show what a session can do: one repeats its source, one lists bindings, one
copies its input, and one fails. Each of them can be had with or without a compiler, with or without
function calls, and with a way to write calls as source text.
-/

namespace ScriptHost.Sample

inductive Behaviour where
  /-- Writes the source text; that is its value, too. -/
  | echo
  /-- Writes a line for every binding that the source text names. -/
  | vars
  /-- Writes what the reader holds. -/
  | cat
  /-- Writes the source text to the output for errors, and fails with it. -/
  | fail
  deriving DecidableEq, Repr

/-- The line of a named binding: its JSON text if it is data, its kind if it is something else. -/
def bindingLine (b : Bindings) (name : String) : String :=
  match b.get? name with
  | none => name ++ "=-"
  | some (.data d) => name ++ "=" ++ d.json
  | some v => name ++ ":" ++ v.kind

/-- The lines of a text that are not empty. -/
def linesOf (text : String) : List String :=
  ((text.toList.splitOn '\n').filter fun l => !l.isEmpty).map String.ofList

/-- Runs a source text. -/
def Behaviour.session (b : Behaviour) (text : String) (ctx : Context) : Session Data :=
  match b with
  | .echo => .writing ctx.output text (.done (.ok (.text text)))
  | .vars =>
    let lines := (linesOf text).map (bindingLine ctx.bindings)
    .writing ctx.output (String.intercalate "\n" lines) (.done (.ok (.list (lines.map .text))))
  | .cat => .readText ctx.input fun
    | .error fault => .fail (.io fault)
    | .ok read => .writing ctx.output read
        (.done (.ok (.ofFields [("read", .text read), ("keys", .int ctx.bindings.size)])))
  | .fail => .writing ctx.errors "err:" (.writing ctx.errors text (.fail (.failure text)))

/-- Source text that begins with this cannot be compiled. -/
def faultMark : String := "!syntax "

/-- What of a text follows a beginning, if the text has that beginning. -/
def after? (start text : String) : Option String :=
  (start.toList.isPrefixOf? text.toList).map String.ofList

def Behaviour.compile (b : Behaviour) (source : Source) :
    Except EngineError (Context → Session Data) :=
  match source.text with
  | .error e => .error e
  | .ok text =>
    match after? faultMark text with
    | some message => .error (.syntaxFault message 7)
    | none => .ok (b.session text)

/-- Calls a function. -/
def invoke (ctx : Context) (name : String) (args : List Data) : Session Data :=
  .writing ctx.output ("|" ++ name)
    (if name = "fail" then .fail (.failure "invoked fail")
    else .done (.ok (.ofFields [("called", .text name), ("args", .list args)])))

/-- A call as source text: the name, directly followed by the arguments as JSON. -/
def callText (name : String) (args : List Data) : String :=
  name ++ (Data.list args).json

def Behaviour.engine (b : Behaviour) (compilable invocable : Bool) : Engine where
  evaluate source ctx :=
    match source.text with
    | .error e => .fail e
    | .ok text => (b.session text ctx).map fun value => ⟨value, ctx⟩
  compile? := if compilable then some b.compile else none
  invoke? := if invocable then some invoke else none

end ScriptHost.Sample
