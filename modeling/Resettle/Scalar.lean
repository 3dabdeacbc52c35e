import Resettle.Dictionary
import Resettle.Number.Shortest

/-!
# Scalar values of settings

The values that settings files hold, how PHP casts them to text and to a truth value, and how
they are spelled as literals.  `Values` is a dictionary of settings.
-/

namespace Resettle

/-- A value that can be read off a settings file without running it. -/
inductive Scalar where
  | bool (b : Bool)
  | int (n : Int)
  | float (x : Binary64)
  | string (s : String)
  | null
deriving DecidableEq, Repr

namespace Scalar

instance : Inhabited Scalar :=
  ⟨null⟩

/-- Digits with a decimal point where `exponent` puts it, zeros filling the gaps. -/
def positional (d : Decimal) : List Char :=
  let digits := Nat.toDigits 10 d.digits
  if 0 ≤ d.exponent then digits ++ List.replicate d.exponent.toNat '0'
  else
    let places := (-d.exponent).toNat
    if digits.length ≤ places then
      '0' :: '.' :: (List.replicate (places - digits.length) '0' ++ digits)
    else
      digits.take (digits.length - places) ++ '.' :: digits.drop (digits.length - places)

/-- The text of a float: integers below `10 ^ 15` have no sign of zero and no point, all other
finite numbers are written out in full with the fewest digits, ties going up. -/
def floatText (x : Binary64) : String :=
  if x.isNaN then "NAN"
  else if x.isInfinite then (if x.isNegative then "-INF" else "INF")
  else if x.isIntegral ∧ x.wholePart < Nat.pow 10 15 then
    toString (if x.isNegative then -(x.wholePart : Int) else x.wholePart)
  else
    String.ofList ((if x.isNegative then ['-'] else []) ++ positional (x.shortest .up))

/-- The values that count as empty: the empty text, the text `0`, zero, false and null. -/
def isEmpty : Scalar → Bool
  | string s => s == "" || s == "0"
  | int n => n == 0
  | float x => x.isZero
  | bool b => !b
  | null => true

/-- The truth value of a scalar, which is true exactly if it is not empty. -/
def truthy (v : Scalar) : Bool :=
  !v.isEmpty

def isNull (v : Scalar) : Bool :=
  v == null

def asString? : Scalar → Option String
  | string s => some s
  | _ => none

/-- The value cast to text: true is `1`, false and null are empty. -/
def text : Scalar → String
  | string s => s
  | int n => toString n
  | float x => floatText x
  | bool true => "1"
  | bool false => ""
  | null => ""

/-- A character inside single quotes: a quote or a backslash follows a backslash. -/
def quoteChar (c : Char) : List Char :=
  if c = '\\' ∨ c = '\'' then ['\\', c] else [c]

def singleQuoted (s : String) : String :=
  String.ofList ('\'' :: (s.toList.flatMap quoteChar ++ ['\'']))

/-- The value as a literal of PHP source.  A float keeps a point, so that it reads back as one. -/
def literal : Scalar → String
  | string s => singleQuoted s
  | int n => toString n
  | float x =>
      let t := floatText x
      if !x.isFinite || t.toList.any (fun c => c == '.' || c == 'E' || c == 'e') then t
      else t ++ ".0"
  | bool b => if b then "true" else "false"
  | null => "null"

end Scalar

/-- Settings under their names, in the order in which they were met. -/
abbrev Values :=
  Dictionary String Scalar

namespace Values

/-- The first value among several names that is present and not null. -/
def lookup (values : Values) (names : List String) : Option Scalar :=
  (names.filterMap values.get?).find? fun v => !v.isNull

end Values

end Resettle
