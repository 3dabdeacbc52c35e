import Resettle.Php.Grammar.Expression
import Resettle.Php.Summary

/-!
# Declarations

Functions, classes and what stands inside classes.  Methods and properties of a class become nodes
of their own; interfaces, traits, enumerations and classes without a name hand their members on.
-/

namespace Resettle.Php

namespace Grammar

open Php.Parser

variable (g : Grammar)

def classModifiers : List String :=
  ["abstract", "final", "readonly"]

def memberModifiers : List String :=
  ["public", "protected", "private", "static", "final", "abstract", "readonly", "var"]

/-- The visibility that the first modifier of visibility gives; members are public without one. -/
def visibilityOf (modifiers : List String) : Visibility :=
  let marks := modifiers.filter fun m =>
    ["public", "protected", "private"].any fun k => k.toList.isPrefixOf m.toList
  (marks.head?.bind Visibility.ofKeyword?).getD .publicAccess

def constantElement : Parser (List Node) := do
  let name ← anyName
  symbol "="
  return [nameNode name, ← g.expression]

/-- Constants behind their keyword; a type may stand in front of the first. -/
def constants : Parser (List Node) := do
  let next ← peekAt 1
  if !(next.isSymbol "=") then type
  let elements ← commaList g.constantElement
  semicolon
  return elements.flatten

def propertyElement : Parser (String × Option Node) := do
  let name ← anyVariable
  if ← accept "=" then
    return (name, some (← g.expression))
  else
    return (name, none)

/-- A hook of a property, which contributes nothing. -/
def hook : Parser Unit := do
  let _ ← g.attributes
  let _ ← many (modifier ["final"])
  let _ ← accept "&"
  let _ ← anyName
  if ← nextIs "(" then
    let _ ← g.parameters
  if ← accept "=>" then
    let _ ← g.expression
    semicolon
  else if ← nextIs "\x7b" then
    let _ ← g.block
  else semicolon

def properties (visibility : Visibility) : Parser Node := do
  match ← peek with
  | .var _ => pure ()
  | _ => type
  let elements ← commaList g.propertyElement
  if ← accept "\x7b" then
    let _ ← many g.hook
    symbol "\x7d"
  else semicolon
  return .property visibility elements

def methodRule (visibility : Visibility) : Parser Node := do
  let _ ← accept "&"
  let name ← anyName
  let params ← g.parameters
  returnType
  let names := params.map Parameter.name
  if ← nextIs "\x7b" then
    let first ← lexeme
    symbol "\x7b"
    let body ← many g.statement
    let last ← takeIf (Token.isSymbol "\x7d")
    return .method name visibility names body.flatten
      (String.ofList (summary (first.between last)))
  else
    semicolon
    return .method name visibility names [] (String.ofList (summary []))

/-- The rules behind a use of traits up to the closing brace, which contribute nothing. -/
def traitRules : Parser Unit := do
  let _ ← many (takeIf fun t => !(t.isSymbol "\x7d") && !(t.isSymbol "\x7b"))
  symbol "\x7d"

def traitUse : Parser (List Node) := do
  let _ ← names
  if ← accept "\x7b" then traitRules
  else semicolon
  return []

def enumCase : Parser (List Node) := do
  let name ← anyName
  if ← accept "=" then
    let value ← g.expression
    semicolon
    return [nameNode name, value]
  else
    semicolon
    return [nameNode name]

/-- A member of a class; `cases` admits the cases of an enumeration in place of properties. -/
def memberRule (cases : Bool) : Parser (List Node) := do
  let attrs ← g.attributes
  if ← acceptKeyword "use" then
    traitUse
  else if cases && (← nextIsKeyword "case") then
    keyword "case"
    return attrs ++ (← g.enumCase)
  else
    let modifiers ← many (modifier memberModifiers)
    let visibility := visibilityOf modifiers
    if ← acceptKeyword "const" then
      return attrs ++ (← g.constants)
    else if ← acceptKeyword "function" then
      return [← g.methodRule visibility]
    else if modifiers.isEmpty || cases then failure
    else return [← g.properties visibility]

def membersRule (cases : Bool) : Parser (List Node) := do
  symbol "\x7b"
  let members ← many (g.memberRule cases)
  symbol "\x7d"
  return members.flatten

def parentClause : Parser (Option String) := do
  if ← acceptKeyword "extends" then
    let parents ← commaList anyQualified
    return parents.head?.map fun p => String.ofList (p.toList.dropWhile (· = '\\'))
  else
    return none

def implementsClause : Parser Unit := do
  if ← acceptKeyword "implements" then
    let _ ← commaList anyQualified

def classRule : Parser Node := do
  let name ← anyName
  let parent ← parentClause
  implementsClause
  return .classDecl name parent (← g.members false)

def interfaceRule : Parser (List Node) := do
  let name ← anyName
  let extended ← if ← acceptKeyword "extends" then names else pure []
  return nameNode name :: extended ++ (← g.members false)

def traitRule : Parser (List Node) := do
  let name ← anyName
  return nameNode name :: (← g.members false)

def enumRule : Parser (List Node) := do
  let name ← anyName
  returnType
  let inherited ← inheritance
  return nameNode name :: inherited ++ (← g.members true)

def functionRule : Parser (List Node) := do
  let _ ← accept "&"
  let name ← anyName
  let params ← g.parameters
  returnType
  return nameNode name :: parameterParts params ++ (← g.block)

end Grammar

end Resettle.Php
