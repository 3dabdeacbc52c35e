import Resettle.Json

/-!
# Tokens of JSON

The words that a JSON text is made of, their spelling, and the cutting of a text into them.  A
string is spelled with as few escapes as possible: quotes, backslashes and control characters
are escaped and all else stands for itself.
-/

namespace Resettle.Json

inductive Token where
  | openArray
  | closeArray
  | openObject
  | closeObject
  | comma
  | colon
  | null
  | bool (b : Bool)
  | number (n : Numeral)
  | string (s : Option String)
deriving DecidableEq, Repr

namespace Token

/-! ## Strings -/

/-- The hexadecimal digit of a number below sixteen, in lower case. -/
def hexDigit (n : Nat) : Char :=
  Nat.digitChar n

def escaped (c : Char) : List Char :=
  match c with
  | '"' => ['\\', '"']
  | '\\' => ['\\', '\\']
  | '\x08' => ['\\', 'b']
  | '\x0c' => ['\\', 'f']
  | '\n' => ['\\', 'n']
  | '\r' => ['\\', 'r']
  | '\t' => ['\\', 't']
  | _ =>
      if c.toNat < 32 then
        ['\\', 'u', '0', '0', hexDigit (c.toNat / 16), hexDigit (c.toNat % 16)]
      else [c]

def quoted (s : String) : List Char :=
  '"' :: (s.toList.flatMap escaped ++ ['"'])

/-- A piece of a string: a character, or a number that an escape gave. -/
inductive Piece where
  | char (c : Char)
  | unit (n : Nat)
deriving DecidableEq, Repr

def hexUnit? (a b c d : Char) : Option Nat :=
  digitsValue? 16 0 [a, b, c, d]

def escape? : Char → Option Char
  | '"' => some '"'
  | '\\' => some '\\'
  | '/' => some '/'
  | 'b' => some '\x08'
  | 'f' => some '\x0c'
  | 'n' => some '\n'
  | 'r' => some '\r'
  | 't' => some '\t'
  | _ => none

/-- The pieces up to the closing quote, and what follows it.  A control character must be
escaped. -/
def readPieces? : List Char → Option (List Piece × List Char)
  | [] => none
  | '"' :: rest => some ([], rest)
  | '\\' :: 'u' :: a :: b :: c :: d :: rest =>
      match hexUnit? a b c d, readPieces? rest with
      | some n, some (pieces, behind) => some (.unit n :: pieces, behind)
      | _, _ => none
  | '\\' :: e :: rest =>
      match escape? e, readPieces? rest with
      | some c, some (pieces, behind) => some (.char c :: pieces, behind)
      | _, _ => none
  | c :: rest =>
      if c.toNat < 32 ∨ c = '\\' then none
      else
        match readPieces? rest with
        | some (pieces, behind) => some (.char c :: pieces, behind)
        | none => none

def isHigh (n : Nat) : Bool :=
  0xD800 ≤ n && n < 0xDC00

def isLow (n : Nat) : Bool :=
  0xDC00 ≤ n && n < 0xE000

/-- The text that pieces make up; half of a surrogate pair makes up none. -/
def assemble? : List Piece → Option (List Char)
  | [] => some []
  | .char c :: rest => (assemble? rest).map (c :: ·)
  | .unit high :: .unit low :: rest =>
      if isHigh high then
        if isLow low then
          (assemble? rest).map
            (Char.ofNat (0x10000 + (high - 0xD800) * 0x400 + (low - 0xDC00)) :: ·)
        else none
      else if isLow high then none
      else (assemble? (.unit low :: rest)).map (Char.ofNat high :: ·)
  | .unit n :: rest =>
      if isHigh n ∨ isLow n then none else (assemble? rest).map (Char.ofNat n :: ·)

/-! ## Words -/

def text : Token → List Char
  | openArray => ['[']
  | closeArray => [']']
  | openObject => ['{']
  | closeObject => ['}']
  | comma => [',']
  | colon => [':']
  | null => ['n', 'u', 'l', 'l']
  | bool true => ['t', 'r', 'u', 'e']
  | bool false => ['f', 'a', 'l', 's', 'e']
  | number n => n.text
  | string s => quoted (s.getD "")

def isBlank (c : Char) : Bool :=
  c = ' ' || c = '\t' || c = '\n' || c = '\r'

/-- The token at the start of a text that starts with no blank, and what follows it. -/
def read? : List Char → Option (Token × List Char)
  | '[' :: rest => some (openArray, rest)
  | ']' :: rest => some (closeArray, rest)
  | '{' :: rest => some (openObject, rest)
  | '}' :: rest => some (closeObject, rest)
  | ',' :: rest => some (comma, rest)
  | ':' :: rest => some (colon, rest)
  | 'n' :: 'u' :: 'l' :: 'l' :: rest => some (null, rest)
  | 't' :: 'r' :: 'u' :: 'e' :: rest => some (bool true, rest)
  | 'f' :: 'a' :: 'l' :: 's' :: 'e' :: rest => some (bool false, rest)
  | '"' :: rest =>
      (readPieces? rest).map fun r => (string ((assemble? r.1).map String.ofList), r.2)
  | cs => (Numeral.read? cs).map fun r => (number r.1, r.2)

/-- The tokens of a text with at most `fuel` of them. -/
def readAll? : Nat → List Char → Option (List Token)
  | fuel, cs =>
      match cs.dropWhile isBlank with
      | [] => some []
      | c :: rest =>
          match fuel, read? (c :: rest) with
          | fuel + 1, some (token, behind) => (readAll? fuel behind).map (token :: ·)
          | _, _ => none

/-- The tokens of a text, unless it is not made of tokens and blanks.  Every token takes a
character, so the length bounds their number. -/
def ofText? (s : String) : Option (List Token) :=
  readAll? s.toList.length s.toList

end Token

end Resettle.Json
