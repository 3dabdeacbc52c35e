import Resettle.Php.Token
import Resettle.Text.Search

/-!
# Cutting PHP source into tokens

`lexemes?` cuts a source file into lexemes, or answers `none` where a string, a heredoc or a
comment is left open or a character fits no token.  The scanner is in one of two modes: in code,
or inside a string that interpolates; a stack of frames remembers to which of the two a closing
brace returns.
-/

namespace Resettle.Php

namespace Lexer

def isBlank (c : Char) : Bool :=
  c = ' ' || (9 ≤ c.val && c.val ≤ 13) || c.val == 0xA0 || c.val == 0x200B || c.val == 0x2060 ||
    c.val == 0xFEFF

def isNameStart (c : Char) : Bool :=
  c = '_' || c.isAlpha || (0x80 ≤ c.val && c.val ≤ 0xFFFF && !isBlank c)

def isNameRest (c : Char) : Bool :=
  isNameStart c || c.isDigit

/-! ## Comments and text outside of code -/

/-- What follows a line comment.  The comment ends at the line's end or before a closing tag; a
question mark in it takes the next character along. -/
def afterLineComment : List Char → List Char
  | '?' :: '>' :: rest => '?' :: '>' :: rest
  | '?' :: '\n' :: rest => rest
  | '?' :: '\r' :: '\n' :: rest => rest
  | '?' :: '\r' :: rest => '?' :: '\r' :: rest
  | ['?'] => ['?']
  | '?' :: _ :: rest => afterLineComment rest
  | '\n' :: rest => '\n' :: rest
  | '\r' :: rest => '\r' :: rest
  | _ :: rest => afterLineComment rest
  | [] => []

def afterBlockComment? : List Char → Option (List Char)
  | '*' :: '/' :: rest => some rest
  | _ :: rest => afterBlockComment? rest
  | [] => none

def afterOpeningTag? : List Char → Option (List Char)
  | '<' :: '?' :: rest =>
      match rest with
      | '=' :: more => some more
      | p :: h :: q :: more =>
          if [p, h, q].map Char.toLower = ['p', 'h', 'p'] then some more else some rest
      | _ => some rest
  | _ :: rest => afterOpeningTag? rest
  | [] => none

/-! ## Numbers -/

/-- Digits of a kind, single underscores being allowed between them, and what follows. -/
def digitGroup (isDigit : Char → Bool) : List Char → List Char × List Char
  | '_' :: d :: rest =>
      if isDigit d then
        let (more, behind) := digitGroup isDigit rest
        ('_' :: d :: more, behind)
      else ([], '_' :: d :: rest)
  | c :: rest =>
      if isDigit c then
        let (more, behind) := digitGroup isDigit rest
        (c :: more, behind)
      else ([], c :: rest)
  | [] => ([], [])

def integerToken (cs : List Char) : List Char × List Char :=
  match cs with
  | '0' :: x :: rest =>
      let based (isDigit : Char → Bool) : Option (List Char × List Char) :=
        match rest with
        | d :: _ =>
            if isDigit d then
              let (digits, behind) := digitGroup isDigit rest
              some ('0' :: x :: digits, behind)
            else none
        | [] => none
      let octal : List Char × List Char :=
        if x = 'o' ∨ x = 'O' then
          let (digits, behind) := digitGroup Literal.isOctal rest
          ('0' :: x :: digits, behind)
        else
          let (digits, behind) := digitGroup Literal.isOctal (x :: rest)
          ('0' :: digits, behind)
      if x = 'x' ∨ x = 'X' then (based Literal.isHex).getD octal
      else if x = 'b' ∨ x = 'B' then (based fun c => c = '0' || c = '1').getD octal
      else octal
  | _ => digitGroup Char.isDigit cs

def exponentToken (cs : List Char) : List Char × List Char :=
  match cs with
  | e :: rest =>
      if e = 'e' ∨ e = 'E' then
        let (sign, digits) :=
          match rest with
          | '+' :: more => (['+'], more)
          | '-' :: more => (['-'], more)
          | _ => ([], rest)
        match digits with
        | d :: _ =>
            if d.isDigit then
              let (taken, behind) := digitGroup Char.isDigit digits
              (e :: (sign ++ taken), behind)
            else ([], cs)
        | [] => ([], cs)
      else ([], cs)
  | [] => ([], [])

/-- The float token at the start of a text: it has a point or an exponent. -/
def floatToken? (cs : List Char) : Option (List Char × List Char) :=
  let (whole, rest) := digitGroup Char.isDigit cs
  match rest with
  | '.' :: more =>
      let (part, behind) := digitGroup Char.isDigit more
      let (exponent, behind) := exponentToken behind
      some (whole ++ '.' :: (part ++ exponent), behind)
  | _ =>
      let (exponent, behind) := exponentToken rest
      if exponent = [] then none else some (whole ++ exponent, behind)

def numberNode : Option Scalar → Node
  | some value => .literal value
  | none => .other []

/-- The longest number at the start of a text that starts with a digit, or with a point and a
digit. -/
def number (cs : List Char) : Node × List Char :=
  let (whole, behind) := integerToken cs
  match floatToken? cs with
  | some (float, rest) =>
      if whole.length < float.length then (numberNode (Literal.float? float), rest)
      else (numberNode (Literal.integer? whole), behind)
  | none => (numberNode (Literal.integer? whole), behind)

/-! ## Strings -/

def afterSingleQuoted? : List Char → Option (List Char)
  | '\\' :: _ :: rest => afterSingleQuoted? rest
  | '\'' :: rest => some rest
  | _ :: rest => afterSingleQuoted? rest
  | [] => none

/-- How a string that can interpolate ends. -/
inductive Closing where
  | quote (c : Char)
  | label (text : List Char)

/-- What follows the closing label at the start of a line, if the line starts with it. -/
def afterLabel? (label cs : List Char) : Option (List Char) :=
  (Text.drop? label (cs.dropWhile fun c => c = ' ' || c = '\t')).filter fun rest =>
    !(rest.head?.any isNameRest)

/-- What stops the plain text inside a string. -/
inductive Stop where
  /-- The string ends. -/
  | closed (rest : List Char)
  /-- A variable follows the dollar sign. -/
  | dollar (rest : List Char)
  /-- A brace opens an interpolated expression. -/
  | brace (rest : List Char)

/-- The first place at which plain text inside a string stops; `lineStart` tells whether the text
begins a line.  A backslash takes the next character along. -/
def plainStop? (closing : Closing) : Bool → List Char → Option Stop
  | lineStart, cs =>
      let ended? : Option (List Char) :=
        match closing, cs with
        | .quote q, c :: rest => if c = q then some rest else none
        | .label text, _ => if lineStart then afterLabel? text cs else none
        | .quote _, [] => none
      match ended?, cs with
      | some rest, _ => some (.closed rest)
      | none, [] => none
      | none, '\\' :: c :: rest => plainStop? closing (c == '\n') rest
      | none, '$' :: '{' :: rest => some (.brace rest)
      | none, '{' :: '$' :: rest => some (.brace ('$' :: rest))
      | none, '$' :: c :: rest =>
          if isNameStart c then some (.dollar (c :: rest))
          else plainStop? closing (c == '\n') (c :: rest)
      | none, c :: rest => plainStop? closing (c == '\n') rest

/-- A name at the start of a text, and what follows it. -/
def nameToken (cs : List Char) : String × List Char :=
  (String.ofList (cs.takeWhile isNameRest), cs.dropWhile isNameRest)

/-- The key of an element in a simple interpolation, and what follows it: a name, an integer with
or without a minus sign, or a variable. -/
def simpleKey? (cs : List Char) : Option (Node × List Char) :=
  match cs with
  | '$' :: c :: rest =>
      if isNameStart c then
        let (name, behind) := nameToken (c :: rest)
        some (.var name, behind)
      else none
  | '-' :: d :: rest =>
      if d.isDigit then
        let (digits, behind) := integerToken (d :: rest)
        match (Literal.integer? digits).bind Literal.negate? with
        | some value => some (.literal value, behind)
        | none => some (.other [], behind)
      else none
  | c :: rest =>
      if c.isDigit then
        let (digits, behind) := integerToken (c :: rest)
        some (numberNode (Literal.integer? digits), behind)
      else if isNameStart c then
        let (name, behind) := nameToken (c :: rest)
        some (nameNode name, behind)
      else none
  | [] => none

/-- A simple interpolation from behind its dollar sign: a variable, one element of it, or one
property of it. -/
def simpleInterpolation? (cs : List Char) : Option (Node × List Char) :=
  let (name, rest) := nameToken cs
  match rest with
  | '[' :: inner =>
      match simpleKey? inner with
      | some (key, ']' :: behind) => some (.subscript (.var name) (some key), behind)
      | _ => none
  | '-' :: '>' :: c :: more =>
      if isNameStart c then
        let (property, behind) := nameToken (c :: more)
        some (.fetch (.var name) property, behind)
      else some (.var name, rest)
  | _ => some (.var name, rest)

/-- The opening of a heredoc or nowdoc from behind its arrows: whether it interpolates, its label,
and the text from the next line on. -/
def heredocOpening? (cs : List Char) : Option (Bool × List Char × List Char) :=
  let cs := cs.dropWhile fun c => c = ' ' || c = '\t'
  let (quote, body) :=
    match cs with
    | '\'' :: rest => (some '\'', rest)
    | '"' :: rest => (some '"', rest)
    | _ => (none, cs)
  let label := body.takeWhile isNameRest
  let behind := body.dropWhile isNameRest
  let behind? : Option (List Char) :=
    match quote with
    | none => some behind
    | some q => Text.drop? [q] behind
  if label.head?.any isNameStart then
    match behind? with
    | some ('\n' :: rest) => some (quote != some '\'', label, rest)
    | some ('\r' :: '\n' :: rest) => some (quote != some '\'', label, rest)
    | _ => none
  else none

def afterNowdoc? (label : List Char) : Bool → List Char → Option (List Char)
  | lineStart, cs =>
      match (if lineStart then afterLabel? label cs else none), cs with
      | some rest, _ => some rest
      | none, [] => none
      | none, c :: rest => afterNowdoc? label (c == '\n') rest

/-! ## Names and symbols -/

/-- A name at the start of a text, with the parts that namespace separators add to it. -/
def longName : Nat → List Char → List Char × List Char
  | 0, cs => ([], cs)
  | fuel + 1, cs =>
      let own := cs.takeWhile isNameRest
      match cs.dropWhile isNameRest with
      | '\\' :: c :: rest =>
          if isNameStart c then
            let (more, behind) := longName fuel (c :: rest)
            (own ++ '\\' :: more, behind)
          else (own, '\\' :: c :: rest)
      | behind => (own, behind)

/-- Operators and punctuation marks, longer ones before their beginnings. -/
def symbols : List String :=
  ["...", "<=>", "**=", "<<=", ">>=", "??=", "===", "!==", "?->", "->", "=>", "::", "++", "--",
    "**", "<<", ">>", "<=", ">=", "==", "!=", "<>", "&&", "||", "??", "+=", "-=", "*=", "/=",
    ".=", "%=", "&=", "|=", "^=", "#[", ";", ",", "(", ")", "[", "]", "\x7b", "\x7d", ".", "+",
    "-", "*", "/", "%", "&", "|", "^", "~", "!", "<", ">", "=", "?", ":", "@", "$", "\\"]

/-- The longest symbol at the start of a text, and what follows it. -/
def symbolToken? (cs : List Char) : Option (String × List Char) :=
  symbols.findSome? fun s => (Text.drop? s.toList cs).map fun rest => (s, rest)

/-- Keywords after which an operand is expected, so that a point there starts a number. -/
def beforeOperand : List String :=
  ["return", "echo", "print", "case", "and", "or", "xor", "else", "do", "yield", "throw",
    "include", "include_once", "require", "require_once", "clone", "instanceof"]

/-- Whether a token ends an operand, so that a point after it joins texts. -/
def endsOperand : Token → Bool
  | .name _ lower => !beforeOperand.contains lower
  | .symbol s => s == ")" || s == "]" || s == "\x7d"
  | .templateOpen => false
  | .finish => false
  | _ => true

/-! ## The scanner -/

/-- What a closing brace returns to. -/
inductive Frame where
  | block
  | template (closing : Closing)

inductive Mode where
  /-- In code; whether code was left since the last token, and whether that ended an operand. -/
  | code (gap operand : Bool)
  /-- Inside a string that interpolates, at the start of a line or not. -/
  | template (closing : Closing) (lineStart : Bool)

/-- One step of the scanner: a token and what follows it, or only what follows. -/
inductive Step where
  | emit (token : Token) (frames : List Frame) (next : Mode) (rest : List Char)
  | skip (next : Mode) (rest : List Char)
  | stuck

def codeToken (frames : List Frame) (token : Token) (rest : List Char) : Step :=
  .emit token frames (.code false (endsOperand token)) rest

/-- The start of a string that can interpolate; `open_` is the text of its opening, `cs` the text
behind that. -/
def templateStart (frames : List Frame) (closing : Closing) (opening cs : List Char) : Step :=
  let lineStart :=
    match closing with
    | .label _ => true
    | .quote _ => false
  match closing, plainStop? closing lineStart cs with
  | _, none => .stuck
  | .quote '"', some (.closed rest) =>
      let raw := opening ++ cs.take (cs.length - rest.length)
      let node :=
        match Literal.doubleQuoted? raw with
        | some text => Node.literal (.string (String.ofList text))
        | none => .other []
      codeToken frames (.text node) rest
  | _, some (.closed rest) => codeToken frames (.text (.other [])) rest
  | _, some _ => .emit .templateOpen frames (.template closing lineStart) cs

def templateStep (frames : List Frame) (closing : Closing) (lineStart : Bool) (cs : List Char) :
    Step :=
  match plainStop? closing lineStart cs with
  | none => .stuck
  | some (.closed rest) => codeToken frames .templateClose rest
  | some (.brace rest) =>
      .emit (.symbol "\x7b") (.template closing :: frames) (.code false false) rest
  | some (.dollar rest) =>
      match simpleInterpolation? rest with
      | some (node, behind) => .emit (.embedded node) frames (.template closing false) behind
      | none => .stuck

/-- A step in code, at a character that is no blank. -/
def codeStep (frames : List Frame) (gap operand : Bool) (cs : List Char) : Step :=
  match cs with
  | '?' :: '>' :: rest =>
      match afterOpeningTag? rest with
      | some behind => .skip (.code true false) behind
      | none => .skip (.code true false) []
  | '/' :: '/' :: rest => .skip (.code gap operand) (afterLineComment rest)
  | '/' :: '*' :: rest =>
      match afterBlockComment? rest with
      | some behind => .skip (.code gap operand) behind
      | none => .stuck
  | '#' :: '[' :: rest => codeToken frames (.symbol "#[") rest
  | '#' :: '?' :: rest => .skip (.code gap operand) ('?' :: rest)
  | '#' :: rest => .skip (.code gap operand) (afterLineComment rest)
  | '\'' :: rest => singleQuoted ['\''] rest
  | 'b' :: '\'' :: rest => singleQuoted ['b', '\''] rest
  | 'B' :: '\'' :: rest => singleQuoted ['B', '\''] rest
  | '"' :: rest => templateStart frames (.quote '"') ['"'] rest
  | 'b' :: '"' :: rest => templateStart frames (.quote '"') ['b', '"'] rest
  | 'B' :: '"' :: rest => templateStart frames (.quote '"') ['B', '"'] rest
  | '\x60' :: rest => templateStart frames (.quote '\x60') [] rest
  | '$' :: c :: rest =>
      if isNameStart c then
        let (name, behind) := nameToken (c :: rest)
        codeToken frames (.var name) behind
      else codeToken frames (.symbol "$") (c :: rest)
  | '{' :: rest =>
      .emit (.symbol "\x7b") (.block :: frames) (.code false false) rest
  | '}' :: rest =>
      match frames with
      | .template closing :: below => .emit (.symbol "\x7d") below (.template closing false) rest
      | .block :: below => codeToken below (.symbol "\x7d") rest
      | [] => codeToken [] (.symbol "\x7d") rest
  | '<' :: '<' :: '<' :: rest =>
      match heredocOpening? rest with
      | some (true, label, body) => templateStart frames (.label label) [] body
      | some (false, label, body) =>
          match afterNowdoc? label true body with
          | some behind => codeToken frames (.text (.other [])) behind
          | none => .stuck
      | none => plain cs
  | '.' :: d :: rest =>
      if d.isDigit && !operand then
        let (node, behind) := number ('.' :: d :: rest)
        codeToken frames (.number node) behind
      else plain cs
  | '\\' :: c :: rest =>
      if isNameStart c then
        let (text, behind) := longName cs.length (c :: rest)
        codeToken frames (.qualified (String.ofList ('\\' :: text))) behind
      else plain cs
  | c :: _ =>
      if c.isDigit then
        let (node, behind) := number cs
        codeToken frames (.number node) behind
      else if isNameStart c then
        let (text, behind) := longName cs.length cs
        if text.contains '\\' then codeToken frames (.qualified (String.ofList text)) behind
        else
          codeToken frames
            (.name (String.ofList text) (String.ofList (text.map Char.toLower))) behind
      else plain cs
  | [] => .stuck
where
  /-- A single-quoted string behind its opening. -/
  singleQuoted (opening rest : List Char) : Step :=
    match afterSingleQuoted? rest with
    | some behind =>
        let raw := opening ++ rest.take (rest.length - behind.length)
        let node :=
          match Literal.singleQuoted? raw with
          | some text => Node.literal (.string (String.ofList text))
          | none => .other []
        codeToken frames (.text node) behind
    | none => .stuck
  /-- An operator or a punctuation mark. -/
  plain (cs : List Char) : Step :=
    match symbolToken? cs with
    | some (s, behind) => codeToken frames (.symbol s) behind
    | none => .stuck

/-- The lexemes of a text.  Each step takes at least one character, so the length of the text and
one more is fuel enough. -/
def scan : Nat → List Frame → Mode → List Char → Option (List Lexeme)
  | 0, _, _, _ => none
  | fuel + 1, frames, .template closing lineStart, cs =>
      match templateStep frames closing lineStart cs with
      | .emit token frames next rest =>
          (scan fuel frames next rest).map (⟨token, false, cs, rest⟩ :: ·)
      | .skip next rest => scan fuel frames next rest
      | .stuck => none
  | fuel + 1, frames, .code gap operand, cs =>
      match cs.dropWhile isBlank with
      | [] => some [⟨.finish, gap, [], []⟩]
      | code =>
          match codeStep frames gap operand code with
          | .emit token frames next rest =>
              (scan fuel frames next rest).map (⟨token, gap, code, rest⟩ :: ·)
          | .skip next rest => scan fuel frames next rest
          | .stuck => none

end Lexer

/-- The lexemes of a source file, the last of them marking its end.  What stands in front of the
first opening tag is no code. -/
def lexemes? (source : List Char) : Option (List Lexeme) :=
  match Lexer.afterOpeningTag? source with
  | some code => Lexer.scan (code.length + 1) [] (.code false false) code
  | none => some [⟨.finish, false, [], []⟩]

end Resettle.Php
