import Resettle.Number.Decimal
import Resettle.Scalar

/-!
# PHP literals

What the literal tokens of PHP source stand for: quoted strings, integers in four bases, floats
and the three constant names.  Each reader takes the text of a token and answers `none` when the
text is no token of its kind.
-/

namespace Resettle.Php.Literal

/-- What stands between the quotes of a string token, a leading `b` being ignored. -/
def unquote? (quote : Char) (raw : List Char) : Option (List Char) :=
  let body :=
    match raw with
    | 'b' :: rest => rest
    | 'B' :: rest => rest
    | _ => raw
  match body with
  | [] => none
  | c :: rest =>
      if c = quote ∧ rest.getLast? = some quote then some rest.dropLast else none

/-- The text inside single quotes, where a backslash protects a quote or a backslash. -/
def unescapeSingle : List Char → List Char
  | '\\' :: '\\' :: rest => '\\' :: unescapeSingle rest
  | '\\' :: '\'' :: rest => '\'' :: unescapeSingle rest
  | c :: rest => c :: unescapeSingle rest
  | [] => []

def singleQuoted? (raw : List Char) : Option (List Char) :=
  (unquote? '\'' raw).map unescapeSingle

def isOctal (c : Char) : Bool :=
  '0' ≤ c && c ≤ '7'

def isHex (c : Char) : Bool :=
  (digitValue? 16 c).isSome

def valueOf (base : Nat) (digits : List Char) : Nat :=
  (digitsValue? base 0 digits).getD 0

/-- The character with a code point, if the code point has one. -/
def scalarValue? (n : Nat) : Option Char :=
  if n.isValidChar then some (Char.ofNat n) else none

def letterEscape? : Char → Option Char
  | 'n' => some '\n'
  | 't' => some '\t'
  | 'r' => some '\r'
  | 'v' => some '\x0b'
  | 'e' => some '\x1b'
  | 'f' => some '\x0c'
  | '\\' => some '\\'
  | '$' => some '$'
  | '"' => some '"'
  | _ => none

/-- The escape of one to three octal digits; its code counts modulo 256. -/
def octalEscape (cs : List Char) : List Char × List Char :=
  let digits := (cs.take 3).takeWhile isOctal
  ([Char.ofNat (valueOf 8 digits % 256)], cs.drop digits.length)

/-- The escape of an `x` and one or two hexadecimal digits, from behind the `x`. -/
def hexEscape (cs : List Char) : List Char × List Char :=
  let digits := (cs.take 2).takeWhile isHex
  if digits = [] then (['\\', 'x'], cs)
  else ([Char.ofNat (valueOf 16 digits)], cs.drop digits.length)

/-- The escape of a code point in braces, from behind the opening brace.  Where the digits name no
character, the escape yields its own spelling with a closing brace. -/
def braceEscape (cs : List Char) : List Char × List Char :=
  let digits := cs.takeWhile (· ≠ '}')
  let out :=
    match (readNat? 16 digits).bind scalarValue? with
    | some decoded => [decoded]
    | none => '\\' :: 'u' :: '{' :: (digits ++ ['}'])
  (out, (cs.dropWhile (· ≠ '}')).drop 1)

/-- What the text after a backslash begins with: the characters that the escape yields, and the
text behind it.  A backslash that opens no escape yields itself. -/
def escape (cs : List Char) : List Char × List Char :=
  match cs with
  | [] => (['\\'], [])
  | c :: rest =>
      match letterEscape? c with
      | some decoded => ([decoded], rest)
      | none =>
          if isOctal c then octalEscape cs
          else if c = 'x' then hexEscape rest
          else if c = 'u' then
            match rest with
            | '{' :: inner => braceEscape inner
            | _ => (['\\', 'u'], rest)
          else (['\\'], cs)

theorem length_dropWhile_le (p : Char → Bool) (cs : List Char) :
    (cs.dropWhile p).length ≤ cs.length :=
  (List.dropWhile_sublist p).length_le

theorem octalEscape_length_le (cs : List Char) : (octalEscape cs).2.length ≤ cs.length := by
  simp [octalEscape]

theorem hexEscape_length_le (cs : List Char) : (hexEscape cs).2.length ≤ cs.length := by
  simp only [hexEscape]
  split <;> simp

theorem braceEscape_length_le (cs : List Char) : (braceEscape cs).2.length ≤ cs.length := by
  have := length_dropWhile_le (· ≠ '}') cs
  simp only [braceEscape, List.length_drop]
  omega

theorem escape_length_le (cs : List Char) : (escape cs).2.length ≤ cs.length := by
  unfold escape
  split
  · simp
  · next c rest =>
      split
      · simp
      · split
        · exact octalEscape_length_le _
        · split
          · exact Nat.le_succ_of_le (hexEscape_length_le rest)
          · split
            · split
              · next inner =>
                  have := braceEscape_length_le inner
                  simp only [List.length_cons]
                  omega
              · simp
            · simp

def unescapeDouble (cs : List Char) : List Char :=
  match cs with
  | [] => []
  | c :: rest =>
      if c = '\\' then (escape rest).1 ++ unescapeDouble (escape rest).2
      else c :: unescapeDouble rest
termination_by cs.length
decreasing_by
  · have := escape_length_le rest
    simp only [List.length_cons]
    omega
  · simp

/-- The text of a double-quoted string token that interpolates nothing. -/
def doubleQuoted? (raw : List Char) : Option (List Char) :=
  (unquote? '"' raw).map unescapeDouble

/-- The least integer beyond the range of PHP's integers. -/
def integerLimit : Nat :=
  Nat.pow 2 63

def inRange (n : Int) : Bool :=
  -(integerLimit : Int) ≤ n && n < integerLimit

/-- The base that the start of an integer token selects, and the digits behind it. -/
def baseAndDigits (text : List Char) : Nat × List Char :=
  match text with
  | '0' :: 'x' :: digits => (16, digits)
  | '0' :: 'b' :: digits => (2, digits)
  | '0' :: 'o' :: digits => (8, digits)
  | '0' :: c :: digits => (8, c :: digits)
  | _ => (10, text)

/-- The text of a number token in lower case and without its separators. -/
def plainDigits (raw : List Char) : List Char :=
  (raw.filter (· ≠ '_')).map Char.toLower

/-- An integer token.  What is out of the range of integers becomes a float, up to the width of
128 bits. -/
def integer? (raw : List Char) : Option Scalar :=
  let (base, digits) := baseAndDigits (plainDigits raw)
  match (readInt? base digits).filter inRange with
  | some n => some (.int n)
  | none => (readNatUpTo? base (Nat.pow 2 128 - 1) digits).map fun n => .float (Binary64.ofNat n)

def float? (raw : List Char) : Option Scalar :=
  (Binary64.read? (raw.filter (· ≠ '_'))).map .float

/-- The names of true, false and null in any letter case, perhaps with a namespace separator in
front. -/
def constant? (raw : List Char) : Option Scalar :=
  match String.ofList ((raw.dropWhile (· = '\\')).map Char.toLower) with
  | "true" => some (.bool true)
  | "false" => some (.bool false)
  | "null" => some .null
  | _ => none

/-- A number with a minus sign in front.  The least integer has no opposite among the integers. -/
def negate? : Scalar → Option Scalar
  | .int n =>
      if inRange (-n) then some (.int (-n))
      else some (.float (Binary64.ofRatio (decide (0 < n)) n.natAbs 1))
  | .float x => some (.float x.neg)
  | _ => none

def affirm? : Scalar → Option Scalar
  | .int n => some (.int n)
  | .float x => some (.float x)
  | _ => none

end Resettle.Php.Literal
