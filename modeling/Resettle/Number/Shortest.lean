import Resettle.Number.Binary64

/-!
# Shortest decimal digits

The fewest decimal digits that still single out a binary64 number.  A decimal singles a number
out when it lies in the interval of reals that round to it; the ends belong to the interval
exactly when the significand is even.  On each grid of `n` digits only the two neighbours of the
number can be nearest, so the first grid with a neighbour inside the interval decides.
-/

namespace Resettle

/-- A decimal `digits * 10 ^ exponent`. -/
structure Decimal where
  digits : Nat
  exponent : Int
deriving DecidableEq, Repr

namespace Decimal

/-- How many decimal digits a number has; zero has none. -/
def digitCount (n : Nat) : Nat :=
  if n = 0 then 0 else digitCount (n / 10) + 1
termination_by n

/-- The decimal with its trailing zeros moved into the exponent, in at most `fuel` steps. -/
def dropZeros : Nat → Decimal → Decimal
  | 0, d => d
  | fuel + 1, d =>
      if d.digits ≠ 0 ∧ d.digits % 10 = 0 then dropZeros fuel ⟨d.digits / 10, d.exponent + 1⟩
      else d

/-- The decimal without trailing zeros among its digits. -/
def normalize (d : Decimal) : Decimal :=
  dropZeros (digitCount d.digits) d

/-- Ten to a power that may be negative, as a numerator and a denominator. -/
def powerOfTen (e : Int) : Nat × Nat :=
  (Nat.pow 10 e.toNat, Nat.pow 10 (-e).toNat)

/-- The exponent `e` for which `num / den` lies between `10 ^ e` and `10 ^ (e + 1)`. -/
def leadingExponent (num den : Nat) : Int :=
  if den ≤ num then (digitCount (num / den) : Int) - 1
  else -(digitCount ((den - 1) / num) : Int)

end Decimal

namespace Binary64

/-- Which neighbour wins when both are equally near. -/
inductive Tie where
  | even
  | up
deriving DecidableEq, Repr

/-- The interval of reals that round to a finite positive number, in quarter units. -/
structure Interval where
  low : Nat
  high : Nat
  closed : Bool

/-- Below a power of two the neighbours are half as far apart, so the lower end is nearer. -/
def interval (x : Binary64) : Interval where
  low :=
    (4 * x.significand - if x.fraction = 0 ∧ 1 < x.exponentField then 1 else 2) *
      Nat.pow 2 x.scale
  high := (4 * x.significand + 2) * Nat.pow 2 x.scale
  closed := x.significand % 2 == 0

/-- Whether `num / den` quarter units lie in the interval. -/
def Interval.contains (i : Interval) (num den : Nat) : Bool :=
  if i.closed then i.low * den ≤ num && num ≤ i.high * den
  else i.low * den < num && num < i.high * den

/-- The decimal of the grid with spacing `10 ^ exponent` that singles `x` out and is nearest to
it, if the grid has one. -/
def onGrid? (tie : Tie) (x : Binary64) (exponent : Int) : Option Decimal :=
  let (up, down) := Decimal.powerOfTen exponent
  let spacing := up * (4 * unit)
  let value := 4 * x.magnitude * down
  let floor := value / spacing
  let below := x.interval.contains (floor * spacing) down
  let above := x.interval.contains ((floor + 1) * spacing) down
  let rest := 2 * (value % spacing)
  if below && above then
    if rest < spacing then some ⟨floor, exponent⟩
    else if spacing < rest then some ⟨floor + 1, exponent⟩
    else if tie = .even ∧ floor % 2 = 0 then some ⟨floor, exponent⟩
    else some ⟨floor + 1, exponent⟩
  else if below then some ⟨floor, exponent⟩
  else if above then some ⟨floor + 1, exponent⟩
  else none

/-- The shortest decimal that singles out the magnitude of a finite number, nearest to it among
those.  Seventeen digits always suffice. -/
def shortest (tie : Tie) (x : Binary64) : Decimal :=
  if x.isZero then ⟨0, 0⟩
  else
    let leading := Decimal.leadingExponent x.magnitude unit
    let found := (List.range 17).findSome? fun (n : Nat) => onGrid? tie x (leading - (n : Int))
    (found.getD ⟨0, 0⟩).normalize

example : shortest .even (ofRatio false 1 10) = ⟨1, -1⟩ := by decide +kernel

example : shortest .even ⟨1#64⟩ = ⟨5, -324⟩ := by decide +kernel

example : shortest .even (ofRatio false 4503599627370497 4) = ⟨11258999068426242, -1⟩ := by
  decide +kernel

example : shortest .up (ofRatio false 4503599627370497 4) = ⟨11258999068426243, -1⟩ := by
  decide +kernel

end Binary64

end Resettle
