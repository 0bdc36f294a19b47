import ScriptHost.Data.Json

/-!
# Data with its kinds

A description of a value that names the kind of each part.
-/

namespace ScriptHost.Data

mutual
/-- A value with the kind of each part named. -/
def outline : Data → String
  | .null => "Null"
  | .bool b => "Bool(" ++ toString b ++ ")"
  | .int n => "Number(" ++ toString n ++ ")"
  | .real x => "Number(" ++ x.decimal ++ ")"
  | .text s => "String(" ++ Text.quoted s ++ ")"
  | .list items => "Array [" ++ String.intercalate ", " (outlineItems items) ++ "]"
  | .record fields =>
    "Object \x7b" ++ String.intercalate ", " (outlineFields fields) ++ "\x7d"

def outlineItems : List Data → List String
  | [] => []
  | d :: ds => outline d :: outlineItems ds

def outlineFields : List (String × Data) → List String
  | [] => []
  | (name, d) :: fs => (Text.quoted name ++ ": " ++ outline d) :: outlineFields fs
end

end ScriptHost.Data
