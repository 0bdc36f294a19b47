import ScriptHost.Decimal.Scaled

/-!
# Shortest decimals

A binary floating-point number is written with the fewest decimal digits that read back as the same
number, and of those with the ones nearest to it; an exact tie goes to the even last digit. All
arithmetic is on natural numbers.
-/

namespace ScriptHost.Decimal

/-- A positive number `mantissa · 2 ^ exponent` with the reals that round to it: those from a
half (or, just above a power of two, a quarter) unit below to a half unit above. -/
structure Binary where
  mantissa : Nat
  exponent : Int
  /-- Whether the neighbour below is only half as far as the one above. -/
  closeBelow : Bool

namespace Binary

/-- Four times the mantissa over `10 ^ k`, as a numerator and a denominator. -/
def fraction (b : Binary) (k : Int) (quarters : Nat) : Nat × Nat :=
  let e := b.exponent - 2
  let power (base : Nat) (n : Int) : Nat := base.pow n.toNat
  (quarters * power 2 e * power 10 (-k), power 2 (-e) * power 10 k)

/-- Whether `c · 10 ^ k` rounds to the number. The ends of the interval do if the mantissa is even.
-/
def holds (b : Binary) (k : Int) (c : Nat) : Bool :=
  let (low, den) := b.fraction k (4 * b.mantissa - if b.closeBelow then 1 else 2)
  let (high, _) := b.fraction k (4 * b.mantissa + 2)
  if b.mantissa % 2 = 0 then low ≤ c * den && c * den ≤ high
  else low < c * den && c * den < high

/-- The nearer of the two neighbours on the grid of multiples of `10 ^ k` that rounds to the
number, if one does. -/
def onGrid? (b : Binary) (k : Int) : Option Nat :=
  let (num, den) := b.fraction k (4 * b.mantissa)
  let below := num / den
  let rest := num % den
  let (near, far) :=
    if 2 * rest < den ∨ (2 * rest = den ∧ below % 2 = 0) then (below, below + 1)
    else (below + 1, below)
  if b.holds k near && near != 0 then some near
  else if b.holds k far && far != 0 then some far
  else none

/-- The first grid, from `k` downwards, that has a decimal of the number. -/
def search (b : Binary) : Nat → Int → Scaled
  | 0, k => ⟨(b.onGrid? k).getD 0, k⟩
  | fuel + 1, k =>
    match b.onGrid? k with
    | some c => ⟨c, k⟩
    | none => b.search fuel (k - 1)

/-- The largest `k` with `10 ^ k` at most the number, found from above. -/
def magnitude (b : Binary) : Nat → Int → Int
  | 0, k => k
  | fuel + 1, k =>
    let (num, den) := b.fraction k (4 * b.mantissa)
    if den ≤ num then k else b.magnitude fuel (k - 1)

end Binary

/-- Drops the zeros at the end of the digits. -/
def dropZeros : Nat → Scaled → Scaled
  | 0, s => s
  | fuel + 1, s =>
    if s.digits ≠ 0 ∧ s.digits % 10 = 0 then dropZeros fuel ⟨s.digits / 10, s.exponent + 1⟩ else s

/-- The shortest decimal of a number: seventeen digits always suffice, and no power of ten above
`10 ^ 310` is reached. -/
def shortest (b : Binary) : Scaled :=
  dropZeros 400 (b.search 17 (b.magnitude 700 310))

end ScriptHost.Decimal
