import ScriptHost.Engine
import ScriptHost.Template

/-!
# The template engine

The engine that every host has: it renders text templates with the bindings that hold plain data.
Its value is null.
-/

namespace ScriptHost.Template

/-- Reads source text as a template. -/
def ofSource (source : Source) : Except EngineError Template :=
  match source.text with
  | .error e => .error e
  | .ok text =>
    match parse text with
    | .error (fault, line) => .error (.syntaxFault fault.message line)
    | .ok t => .ok t

/-- Writes the rendered template to the output. -/
def session (t : Template) (ctx : Context) : Session Data :=
  .writing ctx.output (t.render ctx.bindings.data?) (.done (.ok .null))

def engine : Engine where
  evaluate source ctx :=
    match ofSource source with
    | .error e => .fail e
    | .ok t => (t.session ctx).map fun value => ⟨value, ctx⟩
  compile? := some fun source => (ofSource source).map session

def factory : Factory where
  id := .builtIn
  engineName := "template"
  engineVersion := "0.10.0"
  names := ["template", "tmpl"]
  extensions := ["tmpl", "tpl"]
  mimeTypes := ["text/x-template"]
  languageName := "template"
  languageVersion := "1"
  supportsCompilation := true
  engine := engine

end ScriptHost.Template
