import Resettle.Php.Parser

/-!
# The recursive parts of the grammar

The parts of the grammar that refer to one another.  Each rule is an ordinary function of a
`Grammar` that holds the rules for what is nested inside it, so the rules can stand in separate
modules and the recursion is tied in one place.
-/

namespace Resettle.Php

/-- The rules for what may be nested. -/
structure Grammar where
  /-- An expression. -/
  expression : Parser Node
  /-- An expression that ends before `and`, `or` and `xor`. -/
  assigned : Parser Node
  /-- An operand of an operator, which may be an assignment if the flag says so. -/
  operand : Bool → Parser Node
  /-- The parts of a list that is assigned to, behind its opening bracket, up to a closing one. -/
  targets : String → Parser (List Node)
  /-- A statement, as the nodes that it contributes. -/
  statement : Parser (List Node)
  /-- The members of a class in braces; the flag admits the cases of an enumeration. -/
  members : Bool → Parser (List Node)

namespace Grammar

open Php.Parser

/-- The grammar in which nothing may be nested. -/
def empty : Grammar where
  expression := failure
  assigned := failure
  operand := fun _ => failure
  targets := fun _ => failure
  statement := failure
  members := fun _ => failure

variable (g : Grammar)

def parenthesized : Parser Node := do
  symbol "("
  let value ← g.expression
  symbol ")"
  return value

def block : Parser (List Node) := do
  symbol "\x7b"
  let statements ← many g.statement
  symbol "\x7d"
  return statements.flatten

/-- Whether a token may follow an ampersand that marks a reference. -/
def followsReference : Token → Bool
  | .var _ => true
  | t => t.isSymbol "..." || t.isSymbol "$" || t.isSymbol "&"

/-- One part of a type, at a nesting depth that is bounded. -/
def typeAtom : Nat → Parser Unit
  | 0 => failure
  | depth + 1 => do
      let _ ← accept "?"
      if ← accept "(" then
        typeAtom depth
        let _ ← many do
          symbol "&"
          typeAtom depth
        symbol ")"
      else
        let _ ← anyQualified

/-- A type, which contributes nothing. -/
def type : Parser Unit := do
  typeAtom 3
  let _ ← many do
    if ← accept "|" then typeAtom 3
    else
      symbol "&"
      if followsReference (← peek) then failure
      typeAtom 3

def returnType : Parser Unit := do
  if ← accept ":" then type

/-! ## Arguments -/

structure Argument where
  /-- The name that the argument is passed under. -/
  label : Option Node
  value : Node

/-- An argument: perhaps a name and a colon, perhaps an ampersand, and an expression that may be
spread. -/
def argument : Parser Argument := do
  let label : Option Node ←
    match ← peek, ← peekAt 1 with
    | .name spelled _, .symbol ":" => do
        let _ ← take
        let _ ← take
        pure (some (nameNode spelled))
    | _, _ => pure none
  let _ ← accept "&"
  if ← accept "..." then
    let value ← g.expression
    return ⟨label, .other [value]⟩
  else
    return ⟨label, ← g.expression⟩

/-- The arguments of a call in parentheses.  Three dots alone stand for none. -/
def arguments : Parser (List Argument) := do
  symbol "("
  match ← peek, ← peekAt 1 with
  | .symbol "...", .symbol ")" => do
      let _ ← take
      let _ ← take
      return []
  | _, _ => listUpTo ")" g.argument

def argumentValues (args : List Argument) : List Node :=
  args.map Argument.value

def argumentParts (args : List Argument) : List Node :=
  args.flatMap fun a => a.label.toList ++ [a.value]

/-! ## Attributes and parameters -/

def attributeUse : Parser (List Node) := do
  let name ← anyQualified
  if ← nextIs "(" then
    return nameNode name :: argumentParts (← g.arguments)
  else
    return [nameNode name]

def attributes : Parser (List Node) := do
  let groups ← many do
    symbol "#["
    let group ← commaList g.attributeUse
    let _ ← accept ","
    symbol "]"
    return group.flatten
  return groups.flatten

structure Parameter where
  attributes : List Node
  name : String
  default : Option Node

/-- The modifiers that may stand in front of a parameter that is a property too. -/
def promotions : List String :=
  ["public", "protected", "private", "readonly"]

/-- The mark that limits a modifier to writing. -/
def writeMark : Parser Unit := do
  match ← peek, ← peekAt 1, ← peekAt 2 with
  | .symbol "(", .name _ "set", .symbol ")" => do
      let _ ← take
      let _ ← take
      let _ ← take
  | _, _, _ => return ()

/-- One of some modifiers, with its mark. -/
def modifier (allowed : List String) : Parser String := do
  match ← peek with
  | .name _ lower =>
      if allowed.contains lower then
        let _ ← take
        match ← peekAt 0, ← peekAt 1 with
        | .symbol "(", .name _ "set" => do
            writeMark
            return lower ++ "(set)"
        | _, _ => return lower
      else failure
  | _ => failure

/-- A parameter: attributes, modifiers, a type, marks for reference and spreading, the variable and
its default value. -/
def parameter : Parser Parameter := do
  let attrs ← g.attributes
  let _ ← many (modifier promotions)
  match ← peek with
  | .var _ => pure ()
  | t =>
      if t.isSymbol "&" || t.isSymbol "..." then pure ()
      else type
  let _ ← accept "&"
  let _ ← accept "..."
  let name ← anyVariable
  if ← accept "=" then
    return ⟨attrs, name, some (← g.expression)⟩
  else
    return ⟨attrs, name, none⟩

def parameters : Parser (List Parameter) := do
  symbol "("
  listUpTo ")" g.parameter

def parameterParts (params : List Parameter) : List Node :=
  params.flatMap fun p => p.attributes ++ .var p.name :: p.default.toList

end Grammar

end Resettle.Php
