/-!
# Data

The plain values that scripts exchange with their host: null, truth values, integers, floating-point
numbers, texts, lists, and records whose fields are ordered by name.
-/

namespace ScriptHost

/-- A floating-point number of 64 bits, by its bits. -/
structure Double where
  bits : UInt64
  deriving DecidableEq, Repr

inductive Data where
  | null
  | bool (b : Bool)
  | int (n : Int)
  | real (x : Double)
  | text (s : String)
  | list (items : List Data)
  | record (fields : List (String × Data))
  deriving Inhabited, BEq, Repr

namespace Data

def asBool? : Data → Option Bool
  | .bool b => some b
  | _ => none

def asText? : Data → Option String
  | .text s => some s
  | _ => none

/-- Puts a field into its place among fields ordered by name; a field of the same name gives way. -/
def placeField (name : String) (value : Data) : List (String × Data) → List (String × Data)
  | [] => [(name, value)]
  | f :: fs =>
    if name < f.1 then (name, value) :: f :: fs
    else if name = f.1 then (name, value) :: fs
    else f :: placeField name value fs

/-- The record of some fields; of two with one name the later counts. -/
def ofFields (fields : List (String × Data)) : Data :=
  .record (fields.foldl (fun acc f => placeField f.1 f.2 acc) [])

/-- The field of a record. -/
def field? (name : String) (fields : List (String × Data)) : Option Data :=
  (fields.find? fun f => f.1 == name).map Prod.snd

end Data

end ScriptHost
