import Resettle.Toml
import Resettle.Toml.Words

/-!
# Reading TOML documents

A document is read line by line into headers and the keys that stand under them, and the tables
are built from these.  Values are read by recursion on their nesting, which is bounded; the
number of steps is bounded by the length of the text, and no wrapper shows it.
-/

namespace Resettle.Toml

/-- What follows the blanks and the comment that may end a line, unless the comment holds a
control character. -/
def afterComment? (cs : List Char) : Option (List Char) :=
  match cs.dropWhile isBlank with
  | '#' :: rest => some (rest.dropWhile isPlain)
  | rest => some rest

/-- What follows blanks, line ends and comments, at most `fuel` lines of them. -/
def afterSpace? : Nat → List Char → Option (List Char)
  | 0, _ => none
  | fuel + 1, cs => do
      let rest ← afterComment? cs
      match lineEnd? rest with
      | some more => afterSpace? fuel more
      | none =>
          -- A comment has to end where its line ends.
          if rest ≠ [] ∧ (cs.dropWhile isBlank).head? = some '#' then none else some rest

/-! ## Values -/

/-- Whether a word without quotes can hold a character. -/
def isWordPart (c : Char) : Bool :=
  c.isAlphanum || c = '_' || c = '-' || c = '+' || c = '.' || c = ':'

/-- The word without quotes at the start of a text.  A blank may stand between a date and a
time. -/
def readWord (cs : List Char) : List Char × List Char :=
  let word := cs.takeWhile isWordPart
  let rest := cs.dropWhile isWordPart
  match rest with
  | ' ' :: d :: more =>
      if d.isDigit ∧ afterDate? word = some [] then
        (word ++ ' ' :: (d :: more).takeWhile isWordPart, (d :: more).dropWhile isWordPart)
      else (word, rest)
  | _ => (word, rest)

/-- The value that a word without quotes spells. -/
def ofWord? (word : List Char) : Option Value :=
  if word = ['t', 'r', 'u', 'e'] then some (.bool true)
  else if word = ['f', 'a', 'l', 's', 'e'] then some (.bool false)
  else if isInteger word || isFloat word then some (.number word)
  else if isDate word then some (.date word)
  else none

def maxNesting : Nat :=
  80

mutual

/-- The value at the start of a text, in at most `fuel` steps and with at most `depth` further
containers around its innermost part. -/
def readValue? : Nat → Nat → List Char → Option (Value × List Char)
  | 0, _, _ => none
  | fuel + 1, depth, cs =>
      match cs with
      | '[' :: rest =>
          if depth = 0 then none
          else (readItems? fuel (depth - 1) rest).map fun r => (.array r.1, r.2)
      | '{' :: rest =>
          if depth = 0 then none
          else (readFields? fuel (depth - 1) [] rest).map fun r => (.table .closed r.1, r.2)
      | '"' :: _ => (readString? cs).map fun r => (.text r.1, r.2)
      | '\'' :: _ => (readString? cs).map fun r => (.text r.1, r.2)
      | _ =>
          let (word, rest) := readWord cs
          (ofWord? word).map (·, rest)

def readItems? : Nat → Nat → List Char → Option (List Value × List Char)
  | 0, _, _ => none
  | fuel + 1, depth, cs => do
      match ← afterSpace? (cs.length + 1) cs with
      | ']' :: rest => return ([], rest)
      | rest =>
          let (value, rest) ← readValue? fuel depth rest
          match ← afterSpace? (cs.length + 1) rest with
          | ',' :: rest =>
              let (values, rest) ← readItems? fuel depth rest
              return (value :: values, rest)
          | ']' :: rest => return ([value], rest)
          | _ => none

def readFields? : Nat → Nat → Entries → List Char → Option (Entries × List Char)
  | 0, _, _, _ => none
  | fuel + 1, depth, entries, cs => do
      match ← afterSpace? (cs.length + 1) cs with
      | '}' :: rest => return (entries, rest)
      | rest =>
          let (path, rest) ← readPath? (cs.length + 1) rest
          let rest ← Text.drop? ['='] rest
          let (value, rest) ← readValue? fuel depth (rest.dropWhile isBlank)
          let entries ← entries.define? value path
          match ← afterSpace? (cs.length + 1) rest with
          | ',' :: rest => readFields? fuel depth entries rest
          | '}' :: rest => return (entries, rest)
          | _ => none

end

/-! ## Documents -/

inductive Line where
  | table (path : List (List Char))
  | item (path : List (List Char))
  | define (path : List (List Char)) (value : Value)

/-- The header or key at the start of a text, and what follows it. -/
def readLine? (cs : List Char) : Option (Line × List Char) :=
  match cs with
  | '[' :: '[' :: rest => do
      let (path, rest) ← readPath? cs.length rest
      return (.item path, ← Text.drop? [']', ']'] rest)
  | '[' :: rest => do
      let (path, rest) ← readPath? cs.length rest
      return (.table path, ← Text.drop? [']'] rest)
  | _ => do
      let (path, rest) ← readPath? cs.length cs
      let rest ← Text.drop? ['='] rest
      let (value, rest) ← readValue? (cs.length + 1) maxNesting (rest.dropWhile isBlank)
      return (.define path value, rest)

/-- The lines of a document, at most `fuel` of them; blank lines and comments are left out. -/
def readLines? : Nat → List Char → Option (List Line)
  | 0, _ => none
  | fuel + 1, cs => do
      match ← afterSpace? (cs.length + 1) cs with
      | [] => return []
      | rest =>
          let (line, rest) ← readLine? rest
          match ← afterComment? rest with
          | [] => return [line]
          | rest => return line :: (← readLines? fuel (← lineEnd? rest))

structure Block where
  header : Line
  keys : List (List (List Char) × Value)

/-- The keys in front of the first header, and the blocks that follow them. -/
def blocks : List Line → List (List (List Char) × Value) × List Block
  | [] => ([], [])
  | .define path value :: rest =>
      let (keys, more) := blocks rest
      ((path, value) :: keys, more)
  | header :: rest =>
      let (keys, more) := blocks rest
      ([], ⟨header, keys⟩ :: more)

def fill? (keys : List (List (List Char) × Value)) (entries : Entries) : Option Entries :=
  keys.foldlM (fun entries k => entries.define? k.2 k.1) entries

def addBlock? (entries : Entries) (b : Block) : Option Entries :=
  match b.header with
  | .table path => entries.openTable? (fill? b.keys) path
  | .item path => entries.openItem? (fill? b.keys) path
  | .define path value => entries.define? value path

def ofLines? (lines : List Line) : Option Entries := do
  let (keys, more) := blocks lines
  more.foldlM addBlock? (← fill? keys [])

/-- The table of a document.  A byte order mark may stand in front. -/
def ofText? (s : String) : Option Entries :=
  let cs :=
    match s.toList with
    | '\ufeff' :: rest => rest
    | cs => cs
  (readLines? (cs.length + 1) cs).bind ofLines?

end Resettle.Toml
