import Resettle.Number.Decimal
import Resettle.Text.Search

/-!
# Strings, keys, numbers and dates of TOML

Readers of the parts of a document that hold no other parts.  A reader of strings takes the text
behind the opening quotes; the others judge a whole word.
-/

namespace Resettle.Toml

def isBlank (c : Char) : Bool :=
  c = ' ' || c = '\t'

/-- Whether a character may stand for itself in a comment or string: every character but the
control characters, tabs excepted. -/
def isPlain (c : Char) : Bool :=
  c = '\t' || (32 ≤ c.toNat && c.toNat ≠ 127)

/-- The text behind a line's end, if one stands at its start. -/
def lineEnd? : List Char → Option (List Char)
  | '\n' :: rest => some rest
  | '\r' :: '\n' :: rest => some rest
  | _ => none

/-! ## Strings -/

def escape? : Char → Option Char
  | 'b' => some '\x08'
  | 't' => some '\t'
  | 'n' => some '\n'
  | 'f' => some '\x0c'
  | 'r' => some '\r'
  | 'e' => some '\x1b'
  | '"' => some '"'
  | '\\' => some '\\'
  | _ => none

/-- How many hexadecimal digits the escape of a letter has, if it has any. -/
def escapeLength? : Char → Option Nat
  | 'x' => some 2
  | 'u' => some 4
  | 'U' => some 8
  | _ => none

/-- The character of a number, if it is that of one. -/
def charOf? (n : Nat) : Option Char :=
  if n < 0xD800 ∨ (0xE000 ≤ n ∧ n < 0x110000) then some (Char.ofNat n) else none

/-- The character of an escape, and what follows it.  The text starts behind the backslash. -/
def readEscape? : List Char → Option (Char × List Char)
  | [] => none
  | e :: rest =>
      match escapeLength? e with
      | some length =>
          if rest.length < length then none
          else ((digitsValue? 16 0 (rest.take length)).bind charOf?).map (·, rest.drop length)
      | none => (escape? e).map (·, rest)

def skipGap : List Char → List Char
  | ' ' :: rest => skipGap rest
  | '\t' :: rest => skipGap rest
  | '\n' :: rest => skipGap rest
  | '\r' :: '\n' :: rest => skipGap rest
  | cs => cs

/-- What follows the gap that a backslash at a line's end makes, if the line ends there. -/
def afterGap? (cs : List Char) : Option (List Char) :=
  (lineEnd? (cs.dropWhile isBlank)).map skipGap

/-- The text of a string of one line between double quotes, with at most `fuel` characters. -/
def readBasic? : Nat → List Char → Option (List Char × List Char)
  | 0, _ => none
  | fuel + 1, cs =>
      match cs with
      | [] => none
      | '"' :: rest => some ([], rest)
      | '\\' :: rest => do
          let (c, rest) ← readEscape? rest
          let (more, rest) ← readBasic? fuel rest
          return (c :: more, rest)
      | c :: rest =>
          if isPlain c then (readBasic? fuel rest).map fun r => (c :: r.1, r.2) else none

def readLiteral? : List Char → Option (List Char × List Char)
  | [] => none
  | '\'' :: rest => some ([], rest)
  | c :: rest => if isPlain c then (readLiteral? rest).map fun r => (c :: r.1, r.2) else none

/-- The quotes at the start of a text that end a string over several lines: three of them end
it, and up to two in front of those belong to it. -/
def readClosing? (quote : Char) (cs : List Char) : Option (List Char × List Char) :=
  let count := (cs.takeWhile (· = quote)).length
  if count < 3 then none
  else
    let inside := min (count - 3) 2
    some (List.replicate inside quote, cs.drop (inside + 3))

/-- The text of a string over several lines, with at most `fuel` characters.  Escapes and gaps
are read if `escapes`. -/
def readLong? (quote : Char) (escapes : Bool) : Nat → List Char → Option (List Char × List Char)
  | 0, _ => none
  | fuel + 1, cs =>
      match readClosing? quote cs with
      | some closing => some closing
      | none =>
          match cs with
          | [] => none
          | c :: rest =>
              let keep (kept behind : List Char) : Option (List Char × List Char) :=
                (readLong? quote escapes fuel behind).map fun r => (kept ++ r.1, r.2)
              if c = '\\' ∧ escapes then
                match afterGap? rest with
                | some behind => keep [] behind
                | none => (readEscape? rest).bind fun e => keep [e.1] e.2
              else
                match lineEnd? cs with
                | some behind => keep (cs.take (cs.length - behind.length)) behind
                | none => if isPlain c then keep [c] rest else none

/-- What follows a line's end at the start of a text, or the text. -/
def skipLineEnd (cs : List Char) : List Char :=
  (lineEnd? cs).getD cs

def readString? (cs : List Char) : Option (List Char × List Char) :=
  match cs with
  | '"' :: '"' :: '"' :: rest => readLong? '"' true cs.length (skipLineEnd rest)
  | '\'' :: '\'' :: '\'' :: rest => readLong? '\'' false cs.length (skipLineEnd rest)
  | '"' :: rest => readBasic? cs.length rest
  | '\'' :: rest => readLiteral? rest
  | _ => none

/-! ## Keys -/

/-- Whether a character may stand in a key without quotes. -/
def isBare (c : Char) : Bool :=
  c.isAlphanum || c = '_' || c = '-'

/-- The key without dots at the start of a text. -/
def readKey? (cs : List Char) : Option (List Char × List Char) :=
  match cs with
  | '"' :: rest => readBasic? cs.length rest
  | '\'' :: rest => readLiteral? rest
  | _ =>
      let key := cs.takeWhile isBare
      if key = [] then none else some (key, cs.dropWhile isBare)

/-- The key at the start of a text, cut at its dots, of at most `fuel` parts; blanks may stand
around the parts. -/
def readPath? : Nat → List Char → Option (List (List Char) × List Char)
  | 0, _ => none
  | fuel + 1, cs => do
      let (key, rest) ← readKey? (cs.dropWhile isBlank)
      match rest.dropWhile isBlank with
      | '.' :: more =>
          let (keys, rest) ← readPath? fuel more
          return (key :: keys, rest)
      | rest => return ([key], rest)

/-! ## Numbers -/

/-- Digits of a base, single underscores being allowed between them. -/
def isGrouped (base : Nat) : List Char → Bool
  | [] => false
  | [c] => (digitValue? base c).isSome
  | c :: '_' :: rest => (digitValue? base c).isSome && isGrouped base rest
  | c :: rest => (digitValue? base c).isSome && isGrouped base rest

/-- A word without the sign that may stand in front. -/
def dropSign : List Char → List Char
  | '+' :: rest => rest
  | '-' :: rest => rest
  | cs => cs

/-- Decimal digits without a leading zero. -/
def isWhole (cs : List Char) : Bool :=
  cs == ['0'] || (cs.head? != some '0' && isGrouped 10 cs)

def isInteger (cs : List Char) : Bool :=
  match cs with
  | '0' :: 'x' :: digits => isGrouped 16 digits
  | '0' :: 'o' :: digits => isGrouped 8 digits
  | '0' :: 'b' :: digits => isGrouped 2 digits
  | _ => isWhole (dropSign cs)

/-- A number with a fraction, an exponent or both, or the name of a number that is not finite. -/
def isFloat (cs : List Char) : Bool :=
  let unsigned := dropSign cs
  if unsigned = ['i', 'n', 'f'] ∨ unsigned = ['n', 'a', 'n'] then true
  else
    let isMark (c : Char) : Bool := c = 'e' || c = 'E'
    let mantissa := unsigned.takeWhile fun c => !isMark c
    let exponent := unsigned.dropWhile fun c => !isMark c
    let whole := mantissa.takeWhile (· ≠ '.')
    let fraction := mantissa.dropWhile (· ≠ '.')
    isWhole whole &&
      (fraction = [] || isGrouped 10 (fraction.drop 1)) &&
      (exponent = [] || isGrouped 10 (dropSign (exponent.drop 1))) &&
      (fraction ≠ [] || exponent ≠ [])

/-! ## Dates and times -/

/-- The number of exactly `count` digits at the start of a text, and what follows them. -/
def readCount? (count : Nat) (cs : List Char) : Option (Nat × List Char) :=
  if cs.length < count ∨ ¬ (cs.take count).all Char.isDigit then none
  else (digitsValue? 10 0 (cs.take count)).map (·, cs.drop count)

def daysOf (year month : Nat) : Nat :=
  if month = 2 then
    if year % 4 = 0 ∧ (year % 100 ≠ 0 ∨ year % 400 = 0) then 29 else 28
  else if month = 4 ∨ month = 6 ∨ month = 9 ∨ month = 11 then 30
  else 31

def afterDate? (cs : List Char) : Option (List Char) := do
  let (year, rest) ← readCount? 4 cs
  let (month, rest) ← readCount? 2 (← Text.drop? ['-'] rest)
  let (day, rest) ← readCount? 2 (← Text.drop? ['-'] rest)
  if 1 ≤ month ∧ month ≤ 12 ∧ 1 ≤ day ∧ day ≤ daysOf year month then some rest else none

def afterFraction? : List Char → Option (List Char)
  | '.' :: rest =>
      if (rest.head?.map Char.isDigit).getD false then some (rest.dropWhile Char.isDigit)
      else none
  | cs => some cs

/-- What follows a time of day at the start of a text; the seconds may be missing. -/
def afterTime? (cs : List Char) : Option (List Char) := do
  let (hour, rest) ← readCount? 2 cs
  let (minute, rest) ← readCount? 2 (← Text.drop? [':'] rest)
  if 23 < hour ∨ 59 < minute then none
  else
    match rest with
    | ':' :: more =>
        let (second, rest) ← readCount? 2 more
        if 60 < second then none else afterFraction? rest
    | _ => some rest

/-- Whether a text is an offset from universal time, or nothing. -/
def isOffset : List Char → Bool
  | [] => true
  | ['Z'] => true
  | ['z'] => true
  | sign :: cs =>
      if sign = '+' ∨ sign = '-' then
        match readCount? 2 cs with
        | some (hour, ':' :: rest) =>
            match readCount? 2 rest with
            | some (minute, []) => hour ≤ 23 && minute ≤ 59
            | _ => false
        | _ => false
      else false

/-- A date, a time of day, or a date and a time that may have an offset. -/
def isDate (cs : List Char) : Bool :=
  match afterDate? cs with
  | some [] => true
  | some (sep :: rest) =>
      (sep = 'T' || sep = 't' || sep = ' ') && ((afterTime? rest).map isOffset).getD false
  | none => afterTime? cs == some []

end Resettle.Toml
