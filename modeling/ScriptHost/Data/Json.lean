import ScriptHost.Data
import ScriptHost.Decimal.Shortest
import ScriptHost.Text.Quoted

/-!
# Data as JSON text

Compact JSON: no blanks, fields in the order of their names, and in strings only quotes, backslashes
and the controls below U+0020 are escaped. A floating-point number always shows a point or an
exponent, so it is told from an integer.
-/

namespace ScriptHost

namespace Double

/-- The number behind the bits, without its sign; zero has no binary form. -/
def magnitude? (x : Double) : Option Decimal.Binary :=
  let fraction := (x.bits &&& 0xFFFFFFFFFFFFF).toNat
  let biased := (x.bits >>> 52 &&& 0x7FF).toNat
  if biased = 0 then
    if fraction = 0 then none else some ⟨fraction, -1074, false⟩
  else some ⟨fraction + 0x10000000000000, (biased : Int) - 1075, fraction = 0 && biased != 1⟩

/-- The decimal point is written within or beside the digits from `10 ^ -5` up to, but not
including, `10 ^ 16`; other numbers have one digit before the point and a signed exponent. -/
def layout (s : Decimal.Scaled) : String :=
  let digits := Nat.toDigits 10 s.digits
  let exponent : Int := s.exponent + (digits.length - 1 : Nat)
  let zeros (n : Int) := List.replicate n.toNat '0'
  if exponent < -5 ∨ 16 ≤ exponent then
    let tail := digits.drop 1
    String.ofList (digits.take 1) ++ (if tail.isEmpty then "" else "." ++ String.ofList tail) ++
      (if exponent < 0 then "e-" else "e+") ++ toString exponent.natAbs
  else if 0 ≤ s.exponent then String.ofList (digits ++ zeros s.exponent) ++ ".0"
  else if 0 ≤ exponent then
    String.ofList (digits.take (exponent.toNat + 1)) ++ "." ++
      String.ofList (digits.drop (exponent.toNat + 1))
  else "0." ++ String.ofList (zeros (-exponent - 1) ++ digits)

/-- The decimal form of a finite number: as few digits as read back. -/
def decimal (x : Double) : String :=
  let sign := if x.bits >>> 63 = 1 then "-" else ""
  match x.magnitude? with
  | none => sign ++ "0.0"
  | some b => sign ++ layout (Decimal.shortest b)

end Double

namespace Data

/-- One character of a JSON string. -/
def jsonChar (c : Char) : String :=
  if c = '"' then "\\\""
  else if c = '\\' then "\\\\"
  else if c = '\n' then "\\n"
  else if c = '\r' then "\\r"
  else if c = '\t' then "\\t"
  else if c = Char.ofNat 0x08 then "\\b"
  else if c = Char.ofNat 0x0C then "\\f"
  else if c.toNat < 0x10 then "\\u000" ++ Text.hex c.toNat
  else if c.toNat < 0x20 then "\\u00" ++ Text.hex c.toNat
  else String.singleton c

def jsonString (s : String) : String :=
  "\"" ++ String.join (s.toList.map jsonChar) ++ "\""

mutual
/-- The JSON text of a value. -/
def json : Data → String
  | .null => "null"
  | .bool true => "true"
  | .bool false => "false"
  | .int n => toString n
  | .real x => x.decimal
  | .text s => jsonString s
  | .list items => "[" ++ String.intercalate "," (jsonItems items) ++ "]"
  | .record fields => "\x7b" ++ String.intercalate "," (jsonFields fields) ++ "\x7d"

def jsonItems : List Data → List String
  | [] => []
  | d :: ds => json d :: jsonItems ds

def jsonFields : List (String × Data) → List String
  | [] => []
  | (name, d) :: fs => (jsonString name ++ ":" ++ json d) :: jsonFields fs
end

end Data

end ScriptHost
