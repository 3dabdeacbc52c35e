import Resettle.Scalar
import Resettle.Text.Blank
import Resettle.Text.Lines
import Resettle.Text.Search

/-!
# Connection blocks

The database configuration of a Laravel project lists its connections as blocks
`'driver' => [ … ],`.  An entry of a block is found by its quoted key and an arrow; its new value
takes the place of the rest of its line, up to a comment.  A key without an entry gets one at the
end of the block, indented like the first entry.  What stands outside of the block is kept.
-/

namespace Resettle.ConnectionBlock

/-- A quote of either kind, taken off a text. -/
def dropQuote? : List Char → Option (List Char)
  | '\'' :: rest => some rest
  | '"' :: rest => some rest
  | _ => none

/-- What a quoted key with an arrow leaves of a text, the blanks behind the arrow being taken. -/
def afterArrow? (key cs : List Char) : Option (List Char) := do
  let cs ← dropQuote? cs
  let cs ← Text.drop? key cs
  let cs ← dropQuote? cs
  let cs ← Text.drop? ['=', '>'] (Text.trimStart cs)
  return Text.trimStart cs

/-- The text in front of a rest that ends it. -/
def inFrontOf (cs rest : List Char) : List Char :=
  cs.take (cs.length - rest.length)

/-- The header of a block at the front of a text, and what follows it. -/
def header? (driver cs : List Char) : Option (List Char × List Char) := do
  let rest ← Text.drop? ['['] (← afterArrow? driver cs)
  return (inFrontOf cs rest, rest)

/-- The footer of a block at the front of a text, and what follows it: a line that starts with a
closing bracket and a comma, other lines before it being blank. -/
def footer? (cs : List Char) : Option (List Char × List Char) := do
  let inner ← Text.drop? ['\n'] cs
  let rest ← Text.drop? [']', ','] (Text.trimStart inner)
  return (inFrontOf cs rest, rest)

def isSpace (c : Char) : Bool :=
  c == ' ' || c == '\t'

/-- The comment behind a value, with the blanks in front of it. -/
def comment? (line : List Char) : Option (List Char) :=
  let blanks := line.takeWhile isSpace
  if blanks ≠ [] ∧ (Text.drop? ['/', '/'] (line.dropWhile isSpace)).isSome then some line
  else none

/-- What may end an entry's line: perhaps a comma, and then a comment or blanks only.  The answer
is the comment, which may be empty. -/
def entryEnd? (line : List Char) : Option (List Char) :=
  let ending (rest : List Char) : Option (List Char) :=
    match comment? rest with
    | some comment => some comment
    | none => if rest.all isSpace then some [] else none
  match line with
  | ',' :: rest => (ending rest).or (ending line)
  | _ => ending line

/-- An entry at the front of a text: the text up to its value, its comment, and what follows its
line. -/
def entryAt? (key cs : List Char) : Option (List Char × List Char × List Char) := do
  let value ← afterArrow? key cs
  let line := value.takeWhile (· ≠ '\n')
  let (_, comment) ← Text.search entryEnd? line
  return (inFrontOf cs value, comment, value.dropWhile (· ≠ '\n'))

def setEntry (indent body key literal : List Char) : List Char :=
  match Text.search (entryAt? key) body with
  | some (front, lead, comment, behind) =>
      front ++ lead ++ literal ++ ',' :: (comment ++ behind)
  | none =>
      body ++ '\n' :: (indent ++ '\'' :: (key ++ '\'' :: ' ' :: '=' :: '>' :: ' ' :: literal))
        ++ [',']

/-- Whether a line starts with a quoted key, blanks aside. -/
def isEntryLine (line : List Char) : Bool :=
  (dropQuote? (Text.trimStart line)).isSome

/-- The indentation of entries in a body without any. -/
def defaultIndent : List Char :=
  List.replicate 8 ' '

def entryIndent (body : List Char) : List Char :=
  match (Text.lines body).find? isEntryLine with
  | some line => line.takeWhile Text.isBlank
  | none => defaultIndent

def setEntries (body : List Char) (updates : List (String × Scalar)) : List Char :=
  let indent := entryIndent body
  updates.foldl (fun body u => setEntry indent body u.1.toList u.2.literal.toList) body

/-- A configuration cut at the first block of a driver. -/
structure Cut where
  before : List Char
  header : List Char
  body : List Char
  footer : List Char
  after : List Char

/-- The first header of a driver's block and the first footer behind it. -/
def cut? (content driver : List Char) : Option Cut := do
  let (before, header, inner) ← Text.search (header? driver) content
  let (body, footer, after) ← Text.search footer? inner
  return ⟨before, header, body, footer, after⟩

/-- A configuration with values set in the block of a driver, or `none` where the block cannot be
found. -/
def patch? (content driver : String) (updates : List (String × Scalar)) : Option String := do
  let c ← cut? content.toList driver.toList
  return String.ofList (c.before ++ c.header ++ setEntries c.body updates ++ c.footer ++ c.after)

end Resettle.ConnectionBlock
