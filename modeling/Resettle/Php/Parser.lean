import Resettle.Php.Token

/-!
# Parsers over lexemes

A parser takes lexemes from the front of a list, or fails and takes none.  Repetition goes on
while each round takes something, so that it ends with the list.
-/

namespace Resettle.Php

abbrev Parser (α : Type) :=
  StateT (List Lexeme) Option α

namespace Parser

variable {α β : Type}

def lexeme : Parser Lexeme := do
  match ← get with
  | next :: _ => return next
  | [] => failure

def peek : Parser Token := do
  return (← lexeme).token

def peekAt (n : Nat) : Parser Token := do
  return ((← get)[n]?.map Lexeme.token).getD .finish

def take : Parser Lexeme := do
  match ← get with
  | next :: rest =>
      set rest
      return next
  | [] => failure

def takeIf (test : Token → Bool) : Parser Lexeme := do
  if test (← peek) then take else failure

def symbol (s : String) : Parser Unit := do
  let _ ← takeIf (Token.isSymbol s)

def keyword (k : String) : Parser Unit := do
  let _ ← takeIf (Token.isKeyword k)

def nextIs (s : String) : Parser Bool := do
  return (← peek).isSymbol s

def nextIsKeyword (k : String) : Parser Bool := do
  return (← peek).isKeyword k

/-- Whether PHP code was left in front of the next lexeme. -/
def nextHasGap : Parser Bool := do
  return (← lexeme).gap

/-- Takes a certain symbol if it comes next, and tells whether it did. -/
def accept (s : String) : Parser Bool := do
  if ← nextIs s then
    symbol s
    return true
  else
    return false

def acceptKeyword (k : String) : Parser Bool := do
  if ← nextIsKeyword k then
    keyword k
    return true
  else
    return false

def anyName : Parser String := do
  match ← peek with
  | .name spelled _ =>
      let _ ← take
      return spelled
  | _ => failure

def anyQualified : Parser String := do
  match ← peek with
  | .qualified text =>
      let _ ← take
      return text
  | _ => anyName

/-- A variable, named without its dollar sign. -/
def anyVariable : Parser String := do
  match ← peek with
  | .var name =>
      let _ ← take
      return name
  | _ => failure

/-- What a parser yields if it succeeds. -/
def optional? (p : Parser α) : Parser (Option α) := fun ts =>
  match p.run ts with
  | some (a, rest) => some (some a, rest)
  | none => some (none, ts)

/-- The rounds of a parser, as many as succeed and take something. -/
def repeated (p : Parser α) (ts : List Lexeme) : List α × List Lexeme :=
  match p.run ts with
  | none => ([], ts)
  | some (a, rest) =>
      if rest.length < ts.length then
        let (more, behind) := repeated p rest
        (a :: more, behind)
      else ([], ts)
termination_by ts.length

def many (p : Parser α) : Parser (List α) := fun ts =>
  some (repeated p ts)

/-- Values with commas between them, at least one. -/
def commaList (p : Parser α) : Parser (List α) := do
  let first ← p
  let more ← many do
    symbol ","
    p
  return first :: more

/-- Values with commas between them up to a closing symbol, which is taken too; there may be none,
and a comma may stand behind the last. -/
def listUpTo (close : String) (p : Parser α) : Parser (List α) := do
  if ← accept close then
    return []
  else
    let values ← commaList p
    let _ ← accept ","
    symbol close
    return values

/-- The end of a statement: a semicolon, or a place where PHP code is left. -/
def semicolon : Parser Unit := do
  if ← nextIs ";" then symbol ";"
  else if ← nextHasGap then return ()
  else failure

end Parser

end Resettle.Php
