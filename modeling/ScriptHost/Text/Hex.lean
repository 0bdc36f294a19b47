/-!
# Hexadecimal digits

Numbers in base sixteen: written with lower-case letters and without leading zeros, read from
letters of either case.
-/

namespace ScriptHost.Text

/-- The digits of a number in base sixteen. -/
def hex (n : Nat) : String :=
  String.ofList (Nat.toDigits 16 n)

/-- The value of one hexadecimal digit. -/
def hexDigit? (c : Char) : Option Nat :=
  if c.isDigit then some (c.toNat - '0'.toNat)
  else if 'a' ≤ c ∧ c ≤ 'f' then some (c.toNat - 'a'.toNat + 10)
  else if 'A' ≤ c ∧ c ≤ 'F' then some (c.toNat - 'A'.toNat + 10)
  else none

/-- The value of hexadecimal digits, unless another character is among them. -/
def hexValue? (digits : List Char) : Option Nat :=
  digits.foldlM (fun n c => (hexDigit? c).map (n * 16 + ·)) 0

end ScriptHost.Text
