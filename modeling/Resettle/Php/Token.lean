import Resettle.Php.Literal
import Resettle.Php.Node

/-!
# Tokens of PHP source

What a source file is cut into.  A lexeme is a token together with the source from its first
character on and the source behind it, so that stretches of source can be cut out between two
lexemes, and with a mark that says whether PHP code was left and entered again in front of it.
-/

namespace Resettle.Php

inductive Token where
  /-- A name or keyword, as spelled and in lower case. -/
  | name (spelled lower : String)
  /-- A name with namespace separators. -/
  | qualified (text : String)
  /-- A variable, named without its dollar sign. -/
  | var (name : String)
  /-- A number, already read. -/
  | number (value : Node)
  /-- A string in which nothing is interpolated, already read. -/
  | text (value : Node)
  /-- The start of a string in which something is interpolated. -/
  | templateOpen
  /-- A simple interpolation, already read. -/
  | embedded (value : Node)
  /-- The end of a string in which something is interpolated. -/
  | templateClose
  /-- An operator or a punctuation mark. -/
  | symbol (text : String)
  /-- The end of the source. -/
  | finish
deriving Repr

namespace Token

instance : Inhabited Token :=
  ⟨finish⟩

def isSymbol (s : String) : Token → Bool
  | symbol t => t == s
  | _ => false

def isKeyword (k : String) : Token → Bool
  | name _ lower => lower == k
  | _ => false

def isVariable : Token → Bool
  | var _ => true
  | _ => false

end Token

structure Lexeme where
  token : Token
  /-- Whether PHP code was left since the token before. -/
  gap : Bool
  /-- The source from the token on. -/
  start : List Char
  /-- The source behind the token. -/
  stop : List Char

namespace Lexeme

/-- The source from the start of one lexeme up to the end of another. -/
def between (first last : Lexeme) : List Char :=
  first.start.take (first.start.length - last.stop.length)

end Lexeme

/-- The node of a bare name: one of the three constants, or nothing of interest. -/
def nameNode (text : String) : Node :=
  match Literal.constant? text.toList with
  | some value => .literal value
  | none => .other []

end Resettle.Php
