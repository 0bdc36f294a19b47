import ScriptHost.Text.Hex
import ScriptHost.Text.Printable

/-!
# Quoted text

A text between double quotes, as it appears in error messages and in descriptions of values:
quotes and backslashes get a backslash, four controls have letters, and whatever else does not show
is given by its number. A single quote stands for itself.
-/

namespace ScriptHost.Text

/-- One character of a quoted text. -/
def quoteChar (c : Char) : String :=
  if c = '"' then "\\\""
  else if c = '\\' then "\\\\"
  else if c = '\n' then "\\n"
  else if c = '\r' then "\\r"
  else if c = '\t' then "\\t"
  else if c = Char.ofNat 0 then "\\0"
  else if isPrintable c then String.singleton c
  else "\\u\x7b" ++ hex c.toNat ++ "\x7d"

/-- A text between double quotes. -/
def quoted (s : String) : String :=
  "\"" ++ String.join (s.toList.map quoteChar) ++ "\""

/-- Quoted texts in square brackets, separated by commas. -/
def quotedList (xs : List String) : String :=
  "[" ++ String.intercalate ", " (xs.map quoted) ++ "]"

end ScriptHost.Text
