import Resettle.Number.Decimal

/-!
# Numerals of JSON

A numeral is kept as its parts, and its value is taken only where a number is asked for.  Without
a point and an exponent the value is an integer as long as it is small enough.  Every other value
is a float that is reached in two roundings: the significand, which takes digits as long as it
fits in sixty-four bits, and its product or quotient with a power of ten.
-/

namespace Resettle.Json

/-- A numeral: digits, perhaps digits behind a point, perhaps an exponent. -/
structure Numeral where
  negative : Bool
  /-- The digits in front of the point. -/
  whole : List Char
  /-- The digits behind the point; none if there is no point. -/
  fraction : List Char
  exponent : Option Int
deriving DecidableEq, Repr

inductive Number where
  | integer (n : Int)
  | float (x : Binary64)
deriving DecidableEq, Repr

namespace Numeral

/-! ## Integers -/

def ofInt (n : Int) : Numeral where
  negative := n < 0
  whole := Nat.toDigits 10 n.natAbs
  fraction := []
  exponent := none

def maxSignificand : Nat :=
  Nat.pow 2 64 - 1

/-- The integers that stay integers. -/
def isSmall (n : Int) : Bool :=
  -(Nat.pow 2 63 : Int) ≤ n && n < (Nat.pow 2 63 : Int)

/-! ## Floats -/

/-- A significand and the digits that did not fit into it. -/
def takeDigits : Nat → List Char → Nat × List Char
  | significand, [] => (significand, [])
  | significand, d :: ds =>
      let next := 10 * significand + (d.toNat - '0'.toNat)
      if next ≤ maxSignificand then takeDigits next ds else (significand, d :: ds)

/-- The significand of a numeral and the power of ten that belongs to it.  A digit that does not
fit counts in the exponent if it stands in front of the point, and is dropped behind it. -/
def parts (n : Numeral) : Nat × Int :=
  let (whole, beyond) := takeDigits 0 n.whole
  let (significand, dropped) := takeDigits whole n.fraction
  (significand, (beyond.length : Int) - ((n.fraction.length - dropped.length : Nat) : Int) +
    n.exponent.getD 0)

def maxStep : Nat :=
  308

/-- A float over a power of ten, in steps of at most `maxStep`. -/
def scaleDown (x : Binary64) (exponent : Nat) : Binary64 :=
  if x.isZero then x
  else if exponent ≤ maxStep then x.div (.ofDecimal false ⟨1, (exponent : Int)⟩)
  else scaleDown (x.div (.ofDecimal false ⟨1, (maxStep : Int)⟩)) (exponent - maxStep)
termination_by exponent
decreasing_by
  simp only [maxStep] at *
  omega

/-- A float times a power of ten, unless the result is out of range. -/
def scaleUp? (x : Binary64) (exponent : Nat) : Option Binary64 :=
  if x.isZero then some x
  else if maxStep < exponent then none
  else
    let y := x.mul (.ofDecimal false ⟨1, (exponent : Int)⟩)
    if y.isFinite then some y else none

/-- The magnitude of a numeral as a float, unless it is out of range. -/
def magnitude? (n : Numeral) : Option Binary64 :=
  let (significand, exponent) := n.parts
  let x := Binary64.ofNat significand
  if 0 ≤ exponent then scaleUp? x exponent.toNat else some (scaleDown x (-exponent).toNat)

def signed (negative : Bool) (x : Binary64) : Binary64 :=
  if negative then x.neg else x

/-- The value of a numeral, unless it is out of range.  Minus zero is a float. -/
def value? (n : Numeral) : Option Number :=
  match digitsValue? 10 0 n.whole, n.fraction, n.exponent with
  | some whole, [], none =>
      let value : Int := if n.negative then -(whole : Int) else whole
      if isSmall value && !(n.negative && whole == 0) then some (.integer value)
      else n.magnitude?.map fun x => .float (signed n.negative x)
  | _, _, _ => n.magnitude?.map fun x => .float (signed n.negative x)

/-- The numeral of a finite float: positional from `10 ^ (-5)` up to `10 ^ 16`, in which case
there is a digit behind the point, and with an exponent otherwise. -/
def ofFloat (x : Binary64) : Numeral :=
  let d := x.shortest .even
  let digits := Nat.toDigits 10 d.digits
  let leading := (digits.length : Int) - 1 + d.exponent
  if leading < -5 ∨ 15 < leading then
    ⟨x.isNegative, digits.take 1, digits.drop 1, some leading⟩
  else if 0 ≤ d.exponent then
    ⟨x.isNegative, digits ++ List.replicate d.exponent.toNat '0', ['0'], none⟩
  else if leading < 0 then
    ⟨x.isNegative, ['0'], List.replicate (-leading - 1).toNat '0' ++ digits, none⟩
  else
    ⟨x.isNegative, digits.take (leading + 1).toNat, digits.drop (leading + 1).toNat, none⟩

/-! ## Spelling -/

/-- An exponent: the sign is always written, and at least two digits. -/
def exponentText (e : Int) : List Char :=
  let digits := Nat.toDigits 10 e.natAbs
  'e' :: (if e < 0 then '-' else '+') :: (List.replicate (2 - digits.length) '0' ++ digits)

def text (n : Numeral) : List Char :=
  (if n.negative then ['-'] else []) ++ n.whole ++
    (if n.fraction = [] then [] else '.' :: n.fraction) ++
    (match n.exponent with
      | none => []
      | some e => exponentText e)

/-- The digits at the start of a text, and what follows them. -/
def digits (cs : List Char) : List Char × List Char :=
  (cs.takeWhile Char.isDigit, cs.dropWhile Char.isDigit)

/-- The digits behind a point at the start of a text; a point needs a digit behind it. -/
def readFraction? : List Char → Option (List Char × List Char)
  | '.' :: rest =>
      let (taken, behind) := digits rest
      if taken = [] then none else some (taken, behind)
  | cs => some ([], cs)

/-- The exponent at the start of a text; the letter needs a digit behind it or behind the sign
that follows it. -/
def readExponent? : List Char → Option (Option Int × List Char)
  | [] => some (none, [])
  | e :: rest =>
      if e = 'e' ∨ e = 'E' then
        let (negative, unsigned) :=
          match rest with
          | '-' :: more => (true, more)
          | '+' :: more => (false, more)
          | _ => (false, rest)
        let (taken, behind) := digits unsigned
        if taken = [] then none
        else
          (digitsValue? 10 0 taken).map fun n =>
            (some (if negative then -(n : Int) else n), behind)
      else some (none, e :: rest)

/-- The digits in front of the point; a zero stands alone. -/
def readWhole? : List Char → Option (List Char × List Char)
  | '0' :: rest => some (['0'], rest)
  | cs =>
      let (taken, behind) := digits cs
      if taken = [] then none else some (taken, behind)

/-- The numeral at the start of a text, and what follows it. -/
def read? (cs : List Char) : Option (Numeral × List Char) := do
  let (negative, unsigned) :=
    match cs with
    | '-' :: rest => (true, rest)
    | _ => (false, cs)
  let (whole, rest) ← readWhole? unsigned
  let (fraction, rest) ← readFraction? rest
  let (exponent, rest) ← readExponent? rest
  return (⟨negative, whole, fraction, exponent⟩, rest)

end Numeral

end Resettle.Json
