import Resettle.Number.Shortest

/-!
# Reading decimal numerals

Digits in a base, whole numbers with a bound, and numerals with a point and an exponent.  A
numeral with a point is read exactly and then rounded once.
-/

namespace Resettle

/-- The value of a digit in a base up to thirty-six, letters of either case counting from ten. -/
def digitValue? (base : Nat) (c : Char) : Option Nat :=
  let value? :=
    if '0' ≤ c ∧ c ≤ '9' then some (c.toNat - '0'.toNat)
    else if 'a' ≤ c ∧ c ≤ 'z' then some (c.toNat - 'a'.toNat + 10)
    else if 'A' ≤ c ∧ c ≤ 'Z' then some (c.toNat - 'A'.toNat + 10)
    else none
  value?.filter (· < base)

/-- The number that digits denote when `acc` stands before them. -/
def digitsValue? (base : Nat) : Nat → List Char → Option Nat
  | acc, [] => some acc
  | acc, c :: cs => (digitValue? base c).bind fun d => digitsValue? base (acc * base + d) cs

/-- A natural number written with at least one digit and perhaps a plus sign. -/
def readNat? (base : Nat) (cs : List Char) : Option Nat :=
  let digits :=
    match cs with
    | '+' :: rest => rest
    | _ => cs
  if digits = [] then none else digitsValue? base 0 digits

def readNatUpTo? (base bound : Nat) (cs : List Char) : Option Nat :=
  (readNat? base cs).filter (· ≤ bound)

/-- An integer written with at least one digit and perhaps a sign. -/
def readInt? (base : Nat) (cs : List Char) : Option Int :=
  match cs with
  | '-' :: digits =>
      if digits = [] then none else (digitsValue? base 0 digits).map fun n => -(n : Int)
  | _ => (readNat? base cs).map fun n => (n : Int)

namespace Binary64

/-- The number nearest to `digits * 10 ^ exponent`.  Exponents far outside the range of the
format are decided by the position of the leading digit alone. -/
def ofDecimal (negative : Bool) (d : Decimal) : Binary64 :=
  let leading := (Decimal.digitCount d.digits : Int) + d.exponent
  if d.digits = 0 ∨ leading < -330 then zero negative
  else if 310 < leading then infinity negative
  else
    let (up, down) := Decimal.powerOfTen d.exponent
    ofRatio negative (d.digits * up) down

/-- The exponent that may end a numeral: `e` or `E`, a sign or none, and digits. -/
def readExponent? : List Char → Option Int
  | [] => some 0
  | e :: rest =>
      if e = 'e' ∨ e = 'E' then readInt? 10 rest else none

/-- A numeral without its sign: digits, perhaps a point and digits, perhaps an exponent; at least
one digit stands before or after the point. -/
def readUnsigned? (cs : List Char) : Option Decimal :=
  let whole := cs.takeWhile Char.isDigit
  let afterWhole := cs.dropWhile Char.isDigit
  let (part, rest) :=
    match afterWhole with
    | '.' :: more => (more.takeWhile Char.isDigit, more.dropWhile Char.isDigit)
    | _ => ([], afterWhole)
  if whole = [] ∧ part = [] then none
  else do
    let digits ← digitsValue? 10 0 (whole ++ part)
    let exponent ← readExponent? rest
    return ⟨digits, exponent - part.length⟩

/-- The letters of a text in lower case, ASCII letters alone being touched. -/
def lowerLetters (cs : List Char) : List Char :=
  cs.map Char.toLower

/-- A numeral with a sign or none, or the name of an infinity or of NaN in any letter case. -/
def read? (cs : List Char) : Option Binary64 :=
  let (negative, body) :=
    match cs with
    | '-' :: rest => (true, rest)
    | '+' :: rest => (false, rest)
    | _ => (false, cs)
  let name := String.ofList (lowerLetters body)
  if name = "inf" ∨ name = "infinity" then some (infinity negative)
  else if name = "nan" then some (if negative then nan.neg else nan)
  else (readUnsigned? body).map (ofDecimal negative)

end Binary64

end Resettle
