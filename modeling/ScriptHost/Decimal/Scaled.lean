/-!
# Scaled decimals

Numbers given by their digits and a power of ten, and their way to a floating-point number. As many
digits as fit into 64 bits make the significand. The significand and the power of ten are rounded
each, and so is their product or quotient; the result may miss the nearest number by a little.
-/

namespace ScriptHost.Decimal

/-- A number `digits · 10 ^ exponent`. -/
structure Scaled where
  digits : Nat
  exponent : Int
  deriving DecidableEq, Repr

namespace Scaled

/-- Goes on with the digits before a point. From the first one on that would not fit, they count by
their places only. -/
def appendWhole (n : Nat) : List Nat → Scaled
  | [] => ⟨n, 0⟩
  | d :: ds =>
    let next := n * 10 + d
    if next < UInt64.size then appendWhole next ds else ⟨n, ds.length + 1⟩

/-- Goes on with the digits behind a point, up to the first one that would not fit. -/
def appendFraction (s : Scaled) : List Nat → Scaled
  | [] => s
  | d :: ds =>
    let next := s.digits * 10 + d
    if next < UInt64.size then appendFraction ⟨next, s.exponent - 1⟩ ds else s

/-- The significand of the digits before and behind a point. -/
def ofDigits (whole fraction : List Nat) : Scaled :=
  (appendWhole 0 whole).appendFraction fraction

/-- What did not fit before the point makes place behind it for digits that do. -/
example : ofDigits [1, 2] [5, 0] = ⟨1250, -2⟩ ∧
    ofDigits [1, 8, 4, 4, 6, 7, 4, 4, 0, 7, 3, 7, 0, 9, 5, 5, 1, 6, 1, 7] [7, 0] =
      ⟨1844674407370955161, 1⟩ ∧
    ofDigits [1, 8, 4, 4, 6, 7, 4, 4, 0, 7, 3, 7, 0, 9, 5, 5, 1, 6, 1, 7] [5, 1] =
      ⟨18446744073709551615, 0⟩ := by
  decide +kernel

/-- The largest exponent of a power of ten that is a floating-point number. -/
def largestExponent : Nat := 308

/-- Multiplies by a power of ten, unless the product is too large. A power that is too small is
divided by in steps, until nothing is left. -/
def scale? (x : Float) (exponent : Int) : Option Float :=
  if exponent.natAbs ≤ largestExponent then
    let power : Float := OfScientific.ofScientific 1 false exponent.natAbs
    if exponent < 0 then some (x / power)
    else if (x * power).isInf then none
    else some (x * power)
  else if x == 0 then some x
  else if 0 ≤ exponent then none
  else scale? (x / OfScientific.ofScientific 1 false largestExponent) (exponent + largestExponent)
  termination_by exponent.natAbs
  decreasing_by
    simp only [largestExponent] at *
    omega

/-- The floating-point number, if it is not too large. -/
def toFloat? (s : Scaled) : Option Float :=
  scale? (.ofNat s.digits) s.exponent

/-- Here the quotient or product of rounded numbers is not the nearest number. -/
example : (toFloat? ⟨255, 194⟩).map Float.toBits =
    some (2.5499999999999998e196 : Float).toBits := by
  decide +kernel

/-- Zero is never too large, and nothing is too small. -/
example : (toFloat? ⟨1, 309⟩).map Float.toBits = none ∧
    (toFloat? ⟨0, 309⟩).map Float.toBits = some 0 ∧
    (toFloat? ⟨1, -400⟩).map Float.toBits = some 0 := by
  decide +kernel

end Scaled

end ScriptHost.Decimal
