/-!
# Positions in text

Numbers that select an item of a list: decimal digits, perhaps behind a plus sign, below `2 ^ 64`.
-/

namespace ScriptHost.Text

/-- The value of decimal digits. -/
def digitsValue (cs : List Char) : Nat :=
  cs.foldl (fun n c => n * 10 + (c.toNat - '0'.toNat)) 0

/-- The digits behind a plus sign, or all of the text. -/
def dropPlus : List Char → List Char
  | '+' :: cs => cs
  | cs => cs

/-- The position that a text names, if it names one. -/
def index? (s : String) : Option Nat :=
  let digits := dropPlus s.toList
  if digits ≠ [] ∧ digits.all Char.isDigit ∧ digitsValue digits < UInt64.size then
    some (digitsValue digits)
  else none

example : index? "+07" = some 7 ∧ index? "" = none ∧ index? "1e0" = none := by decide +kernel

end ScriptHost.Text
