/-!
# Binary64 numbers

Numbers of the IEEE 754 format binary64, held as their 64 bits and computed with in exact natural
arithmetic.  A finite number is `significand * 2 ^ scale / 2 ^ 1074`, with its sign beside it.
`ofRatio` rounds a quotient to the nearest number of the format, a tie going to the even one, and
every other operation is that rounding applied to an exact quotient.
-/

namespace Resettle

/-- A number of the format binary64, or an infinity, or one of the NaNs. -/
structure Binary64 where
  /-- The sign bit, eleven exponent bits and fifty-two fraction bits. -/
  bits : BitVec 64
deriving DecidableEq, Repr

namespace Binary64

def isNegative (x : Binary64) : Bool :=
  x.bits.msb

def exponentField (x : Binary64) : Nat :=
  x.bits.toNat / Nat.pow 2 52 % Nat.pow 2 11

def fraction (x : Binary64) : Nat :=
  x.bits.toNat % Nat.pow 2 52

/-- Neither an infinity nor a NaN. -/
def isFinite (x : Binary64) : Bool :=
  x.exponentField != 2047

def isNaN (x : Binary64) : Bool :=
  x.exponentField == 2047 && x.fraction != 0

def isInfinite (x : Binary64) : Bool :=
  x.exponentField == 2047 && x.fraction == 0

def isZero (x : Binary64) : Bool :=
  x.exponentField == 0 && x.fraction == 0

/-- The integer significand of a finite number, the hidden bit included. -/
def significand (x : Binary64) : Nat :=
  if x.exponentField = 0 then x.fraction else Nat.pow 2 52 + x.fraction

/-- The power of two by which the significand exceeds `2 ^ (-1074)`. -/
def scale (x : Binary64) : Nat :=
  x.exponentField - 1

/-- The magnitude of a finite number in units of `2 ^ (-1074)`. -/
def magnitude (x : Binary64) : Nat :=
  x.significand * Nat.pow 2 x.scale

/-- The units of `magnitude` in one. -/
def unit : Nat :=
  Nat.pow 2 1074

/-- The number whose sign is `negative` and whose other bits are `field`. -/
def ofField (negative : Bool) (field : Nat) : Binary64 :=
  ⟨BitVec.ofNat 64 ((if negative then Nat.pow 2 63 else 0) + field)⟩

/-- The field of the infinities, above the field of every finite number. -/
def infinityField : Nat :=
  2047 * Nat.pow 2 52

def infinity (negative : Bool) : Binary64 :=
  ofField negative infinityField

def nan : Binary64 :=
  ofField false (infinityField + Nat.pow 2 51)

def zero (negative : Bool) : Binary64 :=
  ofField negative 0

def neg (x : Binary64) : Binary64 :=
  ⟨x.bits ^^^ BitVec.ofNat 64 (Nat.pow 2 63)⟩

/-- The integer nearest to `num / den`, a tie going to the even one. -/
def roundDiv (num den : Nat) : Nat :=
  let q := num / den
  let r := num % den
  if 2 * r < den then q
  else if den < 2 * r then q + 1
  else if q % 2 = 0 then q
  else q + 1

/-- The field of the number nearest to `num / den`.  The scale is the least at which the quotient
has at most fifty-three binary digits; since fields are ordered as the numbers are, a carry out
of the rounding lands on the right field by plain addition. -/
def fieldOfRatio (num den : Nat) : Nat :=
  let scaled := num * unit
  let scale := Nat.log2 (scaled / den) - 52
  min (scale * Nat.pow 2 52 + roundDiv scaled (den * Nat.pow 2 scale)) infinityField

/-- The number nearest to `num / den`, a tie going to the even one; beyond the range it is an
infinity. -/
def ofRatio (negative : Bool) (num den : Nat) : Binary64 :=
  ofField negative (fieldOfRatio num den)

def ofNat (n : Nat) : Binary64 :=
  ofRatio false n 1

/-- The product of two finite numbers, rounded. -/
def mul (x y : Binary64) : Binary64 :=
  ofRatio (x.isNegative != y.isNegative) (x.magnitude * y.magnitude) (unit * unit)

/-- The quotient of two finite numbers, rounded; the divisor is not zero. -/
def div (x y : Binary64) : Binary64 :=
  ofRatio (x.isNegative != y.isNegative) x.magnitude y.magnitude

def isIntegral (x : Binary64) : Bool :=
  x.magnitude % unit == 0

def wholePart (x : Binary64) : Nat :=
  x.magnitude / unit

/-- One and a half, and the two largest powers of ten that are exact. -/
example : ofRatio false 3 2 = ⟨0x3FF8000000000000#64⟩ := by decide +kernel

example : ofRatio true (10 ^ 22) 1 = ⟨0xC480F0CF064DD592#64⟩ := by decide +kernel

example : ofRatio false 1 (10 ^ 400) = zero false := by decide +kernel

example : ofRatio false (10 ^ 400) 1 = infinity false := by decide +kernel

end Binary64

end Resettle
