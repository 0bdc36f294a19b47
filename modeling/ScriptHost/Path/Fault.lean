import ScriptHost.Path
import ScriptHost.Text.Utf8

/-!
# Files that cannot be read

Why reading the file at a path fails, and how the system words it. Lengths count bytes.
-/

namespace ScriptHost.Path

inductive Fault where
  /-- A zero ends a path for the system and cannot stand within. -/
  | zeroWithin
  | nameTooLong
  | missing
  | folder
  | notUtf8
  deriving DecidableEq

def Fault.message : Fault → String
  | .zeroWithin => "file name contained an unexpected NUL byte"
  | .nameTooLong => "File name too long (os error 36)"
  | .missing => "No such file or directory (os error 2)"
  | .folder => "Is a directory (os error 21)"
  | .notUtf8 => "stream did not contain valid UTF-8"

/-- The longest name that a folder can hold. -/
def nameLimit : Nat := 255

/-- The longest path that the system takes. -/
def pathLimit : Nat := 4095

/-- Whether a part of a path stays within the folders on the way. -/
def isDots (name : List Char) : Bool :=
  name = [] || name = ['.'] || name = ['.', '.']

/-- Why nothing can be read at a path whose first name, dots apart, does not exist. A name behind it
is not looked at, so only the path as a whole and its first name can be too long. -/
def faultOfMissing (path : String) : Fault :=
  let cs := path.toList
  if cs.contains (Char.ofNat 0) then .zeroWithin
  else if cs = [] then .missing
  else if pathLimit < (Text.encode path).length then .nameTooLong
  else match (cs.splitOn '/').find? fun name => !isDots name with
    | none => .folder
    | some name =>
      if nameLimit < (Text.encode (String.ofList name)).length then .nameTooLong else .missing

example : faultOfMissing "" = .missing ∧ faultOfMissing "no-such-dir/x/" = .missing ∧
    faultOfMissing "x\x00" = .zeroWithin ∧ faultOfMissing "./" = .folder := by
  decide +kernel

end ScriptHost.Path
