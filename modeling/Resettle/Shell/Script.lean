/-!
# Shell scripts

The scripts that tools may be written as: simple commands with quoting, parameters and
redirections, linked by line ends, semicolons, `&&` and `||`.
-/

namespace Resettle.Shell

inductive Piece where
  | text (cs : List Char) (quoted : Bool)
  | parameter (name : List Char) (quoted : Bool)
deriving DecidableEq, Repr

/-- A word before its parameters are put in. -/
abbrev Word :=
  List Piece

inductive Redirection where
  /-- Into a file, at its end or from its start. -/
  | file (descriptor : Nat) (atEnd : Bool) (target : Word)
  /-- To where another descriptor leads. -/
  | copy (descriptor : Nat) (other : Nat)
deriving DecidableEq, Repr

structure Command where
  words : List Word
  redirections : List Redirection
deriving DecidableEq, Repr

inductive Link where
  | always
  | ifSucceeded
  | ifFailed
deriving DecidableEq, Repr

abbrev Script :=
  List (Link × Command)

/-! ## Words -/

def isNameStart (c : Char) : Bool :=
  c.isAlpha || c = '_'

def isNameRest (c : Char) : Bool :=
  c.isAlphanum || c = '_'

/-- Whether a character is the name of a parameter by itself. -/
def isSpecial (c : Char) : Bool :=
  c.isDigit || c = '@' || c = '*' || c = '#' || c = '?' || c = '$'

/-- The parameter behind a dollar sign, and what follows it; a dollar sign that no name follows
stands for itself. -/
def readParameter (quoted : Bool) (cs : List Char) : Piece × List Char :=
  match cs with
  | '{' :: rest =>
      match rest.span (· ≠ '}') with
      | (name, _ :: behind) => (.parameter name quoted, behind)
      | (_, []) => (.text ['$'] quoted, cs)
  | c :: rest =>
      if isNameStart c then
        (.parameter (cs.takeWhile isNameRest) quoted, cs.dropWhile isNameRest)
      else if isSpecial c then (.parameter [c] quoted, rest)
      else (.text ['$'] quoted, cs)
  | [] => (.text ['$'] quoted, [])

/-- The pieces up to a closing double quote, and what follows it; at most `fuel` of them. -/
def readQuoted? : Nat → List Char → Option (List Piece × List Char)
  | 0, _ => none
  | fuel + 1, cs =>
      match cs with
      | [] => none
      | '"' :: rest => some ([], rest)
      | '\\' :: '\n' :: rest => readQuoted? fuel rest
      | '\\' :: c :: rest =>
          let kept := if c = '$' ∨ c = '"' ∨ c = '\\' ∨ c.toNat = 96 then [c] else ['\\', c]
          (readQuoted? fuel rest).map fun r => (.text kept true :: r.1, r.2)
      | '$' :: rest =>
          let (piece, behind) := readParameter true rest
          (readQuoted? fuel behind).map fun r => (piece :: r.1, r.2)
      | c :: rest => (readQuoted? fuel rest).map fun r => (.text [c] true :: r.1, r.2)

def endsWord (c : Char) : Bool :=
  c = ' ' || c = '\t' || c = '\n' || c = ';' || c = '&' || c = '|' || c = '<' || c = '>' ||
    c = '(' || c = ')'

/-- The word at the start of a text, and what follows it; at most `fuel` pieces. -/
def readWord? : Nat → List Char → Option (Word × List Char)
  | 0, _ => none
  | fuel + 1, cs =>
      match cs with
      | [] => some ([], [])
      | '\'' :: rest =>
          match rest.span (· ≠ '\'') with
          | (inside, _ :: behind) =>
              (readWord? fuel behind).map fun r => (.text inside true :: r.1, r.2)
          | (_, []) => none
      | '"' :: rest => do
          let (pieces, behind) ← readQuoted? (rest.length + 1) rest
          let (more, behind) ← readWord? fuel behind
          return (.text [] true :: (pieces ++ more), behind)
      | '\\' :: '\n' :: rest => readWord? fuel rest
      | '\\' :: c :: rest =>
          (readWord? fuel rest).map fun r => (.text [c] true :: r.1, r.2)
      | '$' :: rest =>
          let (piece, behind) := readParameter false rest
          (readWord? fuel behind).map fun r => (piece :: r.1, r.2)
      | c :: rest =>
          if endsWord c then some ([], cs)
          else (readWord? fuel rest).map fun r => (.text [c] false :: r.1, r.2)

/-! ## Scripts -/

inductive Token where
  | word (w : Word)
  /-- An arrow to a file or, with `&`, to a descriptor; the word that follows names it. -/
  | arrow (descriptor : Nat) (atEnd copy : Bool)
  | link (l : Link)
deriving DecidableEq, Repr

/-- The arrow at the start of a text, if there is one. -/
def readArrow? (cs : List Char) : Option (Token × List Char) :=
  let (descriptor, rest) :=
    match cs with
    | d :: '>' :: _ => if d.isDigit then (d.toNat - '0'.toNat, cs.drop 1) else (1, cs)
    | _ => (1, cs)
  match rest with
  | '>' :: '>' :: more => some (.arrow descriptor true false, more)
  | '>' :: '&' :: more => some (.arrow descriptor false true, more)
  | '>' :: more => some (.arrow descriptor false false, more)
  | _ => none

/-- The tokens of a script, at most `fuel` of them; none if it uses more of the language. -/
def readTokens? : Nat → List Char → Option (List Token)
  | 0, _ => none
  | fuel + 1, cs =>
      match cs with
      | [] => some []
      | ' ' :: rest => readTokens? fuel rest
      | '\t' :: rest => readTokens? fuel rest
      | '\\' :: '\n' :: rest => readTokens? fuel rest
      | '#' :: rest => readTokens? fuel (rest.dropWhile (· ≠ '\n'))
      | '\n' :: rest => (readTokens? fuel rest).map (.link .always :: ·)
      | ';' :: rest => (readTokens? fuel rest).map (.link .always :: ·)
      | '&' :: '&' :: rest => (readTokens? fuel rest).map (.link .ifSucceeded :: ·)
      | '|' :: '|' :: rest => (readTokens? fuel rest).map (.link .ifFailed :: ·)
      | _ =>
          match readArrow? cs with
          | some (arrow, rest) => (readTokens? fuel rest).map (arrow :: ·)
          | none =>
              match readWord? (cs.length + 1) cs with
              | none => none
              | some ([], _) => none
              | some (w, rest) => (readTokens? fuel rest).map (.word w :: ·)

def descriptorOf? : Word → Option Nat
  | [.text [c] false] => if c.isDigit then some (c.toNat - '0'.toNat) else none
  | _ => none

def assemble? (link : Link) (command : Command) : List Token → Option Script
  | [] => some [(link, command)]
  | .link next :: ts => (assemble? next ⟨[], []⟩ ts).map ((link, command) :: ·)
  | .word w :: ts => assemble? link { command with words := command.words ++ [w] } ts
  | .arrow descriptor atEnd false :: .word w :: ts =>
      assemble? link { command with
        redirections := command.redirections ++ [.file descriptor atEnd w] } ts
  | .arrow descriptor _ true :: .word w :: ts =>
      match descriptorOf? w with
      | some other =>
          assemble? link { command with
            redirections := command.redirections ++ [.copy descriptor other] } ts
      | none => none
  | .arrow _ _ _ :: _ => none

def Script.ofText? (s : String) : Option Script :=
  (readTokens? (s.toList.length + 1) s.toList).bind (assemble? .always ⟨[], []⟩)

end Resettle.Shell
