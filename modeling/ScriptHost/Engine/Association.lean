import ScriptHost.Text.Ascii
import ScriptHost.Text.Space

/-!
# Associations

What an engine can be found by: file extensions, names and mime types. Extensions and mime types are
brought into one form before they are compared; names are taken as they are.
-/

namespace ScriptHost

inductive Association where
  | extension
  | name
  | mimeType
  deriving DecidableEq, Repr

namespace Association

def display : Association → String
  | .extension => "extension"
  | .name => "name"
  | .mimeType => "mime_type"

/-- The form in which a declared text is kept: trimmed, without the dots in front, in lower case.
Nothing is left of an empty one. -/
def form? (declared : String) : Option String :=
  let form := Text.lower (String.ofList ((Text.trimChars declared.toList).dropWhile (· == '.')))
  if form = "" then none else some form

/-- The forms of a list of declared texts, each once, in the order of their first occurrence. -/
def normalize (declared : List String) : List String :=
  (declared.filterMap form?).eraseDups

/-- The form in which a key is looked up. -/
def lookupForm : Association → String → String
  | .name, key => key
  | _, key => Text.lower key

end Association

end ScriptHost
