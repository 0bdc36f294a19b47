import ScriptHost.Data
import ScriptHost.Text.Hex
import ScriptHost.Text.Utf8

/-!
# Fields of records

Typed looks into a record. A field that is null counts as missing, and so does every field of a
value that is no record. Where a look has no question mark, a missing field stands for the empty
value of its type.
-/

namespace ScriptHost.Data

def asList : Data → List Data
  | .list items => items
  | _ => []

def asFields : Data → List (String × Data)
  | .record fields => fields
  | _ => []

def asInt? : Data → Option Int
  | .int n => some n
  | _ => none

def asText (d : Data) : String :=
  d.asText?.getD ""

/-- A field, unless it is missing or null. -/
def at? (d : Data) (name : String) : Option Data :=
  (field? name d.asFields).filter fun value => value != .null

def textAt? (d : Data) (name : String) : Option String :=
  (d.at? name).bind asText?

def textAt (d : Data) (name : String) : String :=
  (d.textAt? name).getD ""

/-- A truth value; `missing` is what a missing field means. -/
def flagAt (d : Data) (name : String) (missing : Bool := false) : Bool :=
  ((d.at? name).bind asBool?).getD missing

def intAt (d : Data) (name : String) : Int :=
  ((d.at? name).bind asInt?).getD 0

def natAt? (d : Data) (name : String) : Option Nat :=
  ((d.at? name).bind asInt?).map Int.toNat

def natAt (d : Data) (name : String) : Nat :=
  (d.natAt? name).getD 0

def listAt (d : Data) (name : String) : List Data :=
  ((d.at? name).map asList).getD []

def textsAt? (d : Data) (name : String) : Option (List String) :=
  (d.at? name).map fun l => l.asList.map asText

def textsAt (d : Data) (name : String) : List String :=
  (d.textsAt? name).getD []

/-- The fields of the record in a field. -/
def fieldsAt (d : Data) (name : String) : List (String × Data) :=
  ((d.at? name).map asFields).getD []

/-- The bytes written with pairs of hexadecimal digits; what is no digit counts as zero. -/
def bytesOfHex : List Char → Bytes
  | high :: low :: rest => UInt8.ofNat ((Text.hexValue? [high, low]).getD 0) :: bytesOfHex rest
  | _ => []

/-- Bytes, either as a text or, in a field whose name ends in `_hex`, digit by digit. -/
def bytesAt (d : Data) (name : String) : Bytes :=
  match d.textAt? (name ++ "_hex") with
  | some digits => bytesOfHex digits.toList
  | none => Text.encode (d.textAt name)

end ScriptHost.Data
