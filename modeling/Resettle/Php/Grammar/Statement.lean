import Resettle.Php.Grammar.Declaration
import Resettle.Php.Lexer

/-!
# Statements

The statements of PHP.  A statement is read as the nodes that it contributes, in source order; the
keyword in front decides what it is.
-/

namespace Resettle.Php

namespace Grammar

open Php.Parser

variable (g : Grammar)

def statementsUpTo (keywords : List String) : Parser (List Node) := do
  let statements ← many do
    match ← peek with
    | .name _ lower => if keywords.contains lower then failure else g.statement
    | _ => g.statement
  return statements.flatten

/-- The body of a loop: a statement, or statements between a colon and a closing keyword. -/
def loopBody (closing : String) : Parser (List Node) := do
  if ← accept ":" then
    let statements ← g.statementsUpTo [closing]
    keyword closing
    semicolon
    return statements
  else
    g.statement

def colonBranches : Nat → Parser (List Node)
  | 0 => failure
  | depth + 1 => do
      let here ← g.statementsUpTo ["elseif", "else", "endif"]
      if ← acceptKeyword "elseif" then
        let condition ← g.parenthesized
        symbol ":"
        return here ++ condition :: (← colonBranches depth)
      else if ← acceptKeyword "else" then
        symbol ":"
        let last ← g.statementsUpTo ["endif"]
        keyword "endif"
        semicolon
        return here ++ last
      else
        keyword "endif"
        semicolon
        return here

def branches : Nat → Parser (List Node)
  | 0 => return []
  | depth + 1 => do
      if ← acceptKeyword "elseif" then
        let condition ← g.parenthesized
        let here ← g.statement
        return condition :: here ++ (← branches depth)
      else if ← acceptKeyword "else" then
        g.statement
      else
        return []

def ifRule : Parser (List Node) := do
  let condition ← g.parenthesized
  let depth := (← get).length
  if ← accept ":" then
    return condition :: (← g.colonBranches depth)
  else
    let first ← g.statement
    return condition :: first ++ (← g.branches depth)

def whileRule : Parser (List Node) := do
  let condition ← g.parenthesized
  return condition :: (← g.loopBody "endwhile")

def doRule : Parser (List Node) := do
  let body ← g.statement
  keyword "while"
  let condition ← g.parenthesized
  semicolon
  return body ++ [condition]

def headPart (close : String) : Parser (List Node) := do
  if ← accept close then return []
  else
    let values ← commaList g.expression
    symbol close
    return values

def forRule : Parser (List Node) := do
  symbol "("
  let start ← g.headPart ";"
  let test ← g.headPart ";"
  let step ← g.headPart ")"
  return start ++ test ++ step ++ (← g.loopBody "endfor")

def bound : Parser (List Node) := do
  if ← atTargets then
    let parts ← optional? do
      let close ← targetsOpening
      g.targets close
    match parts with
    | some nodes => return nodes
    | none => return [← g.expression]
  else if ← accept "&" then
    return [← g.operand false]
  else
    return [← g.expression]

def foreachRule : Parser (List Node) := do
  symbol "("
  let collection ← g.expression
  keyword "as"
  let first ← g.bound
  let second ← if ← accept "=>" then g.bound else pure []
  symbol ")"
  return collection :: first ++ second ++ (← g.loopBody "endforeach")

def caseEnd : Parser Unit := do
  if ← accept ":" then return ()
  else semicolon

/-- One case of a `switch`; `closing` ends the statements of the last one. -/
def switchCase (closing : String) : Parser (List Node) := do
  let stops := ["case", "default", closing]
  if ← acceptKeyword "case" then
    let value ← g.expression
    caseEnd
    return value :: (← g.statementsUpTo stops)
  else
    keyword "default"
    caseEnd
    g.statementsUpTo stops

def switchRule : Parser (List Node) := do
  let subject ← g.parenthesized
  if ← accept ":" then
    let cases ← many (g.switchCase "endswitch")
    keyword "endswitch"
    semicolon
    return subject :: cases.flatten
  else
    symbol "\x7b"
    let cases ← many (g.switchCase "")
    symbol "\x7d"
    return subject :: cases.flatten

def catchRule : Parser (List Node) := do
  symbol "("
  type
  let held ←
    match ← peek with
    | .var name => do
        let _ ← take
        pure [Node.var name]
    | _ => pure []
  symbol ")"
  return held ++ (← g.block)

def tryRule : Parser (List Node) := do
  let body ← g.block
  let clauses ← many do
    if ← acceptKeyword "catch" then g.catchRule
    else
      keyword "finally"
      g.block
  if clauses.isEmpty then failure
  return body ++ clauses.flatten

def directive : Parser Node := do
  let _ ← anyName
  symbol "="
  g.expression

def declareRule : Parser (List Node) := do
  symbol "("
  let values ← commaList g.directive
  symbol ")"
  if ← nextIs ";" then
    semicolon
    return values
  else if ← nextHasGap then
    return values
  else
    return values ++ (← g.loopBody "enddeclare")

def staticRule : Parser (List Node) := do
  let elements ← commaList g.propertyElement
  semicolon
  return elements.flatMap fun e => .var e.1 :: e.2.toList

/-- A namespace behind its keyword: a name, statements in braces, or both. -/
def namespaceRule : Parser (List Node) := do
  let named ← optional? anyQualified
  if ← nextIs "\x7b" then g.block
  else
    if named.isNone then failure
    semicolon
    return []

def importClause : Parser Unit := do
  if (← nextIsKeyword "function") || (← nextIsKeyword "const") then
    match ← peekAt 1 with
    | .name _ _ => let _ ← take
    | .qualified _ => let _ ← take
    | _ => pure ()
  let _ ← anyQualified
  if ← accept "\\" then
    symbol "\x7b"
    let _ ← listUpTo "\x7d" do
      if (← nextIsKeyword "function") || (← nextIsKeyword "const") then
        let _ ← take
      let _ ← anyQualified
      if ← acceptKeyword "as" then
        let _ ← anyName
  else if ← acceptKeyword "as" then
    let _ ← anyName

/-- An import behind its keyword, which contributes nothing. -/
def importRule : Parser (List Node) := do
  let _ ← commaList importClause
  semicolon
  return []

/-- An `exit` behind its keyword, which contributes its argument only. -/
def exitRule : Parser (List Node) := do
  let argument ←
    if ← accept "(" then do
      if ← accept ")" then pure []
      else
        let value ← g.expression
        symbol ")"
        pure [value]
    else pure []
  semicolon
  return argument

def unsetRule : Parser (List Node) := do
  symbol "("
  let places ← listUpTo ")" (g.operand false)
  if places.isEmpty then failure
  semicolon
  return places

def expressionStatement : Parser (List Node) := do
  let value ← g.expression
  semicolon
  return [value]

/-- An expression that may be missing, with a semicolon. -/
def optionalExpression : Parser (List Node) := do
  if (← nextIs ";") || (← nextHasGap) then
    semicolon
    return []
  else
    g.expressionStatement

/-- Whether a token may start the declaration behind the modifiers of a class. -/
def startsClass (t : Token) : Bool :=
  t.isKeyword "class" || classModifiers.any t.isKeyword

/-- A statement that starts with a name or keyword; `next` is the token behind it. -/
def keywordStatement (lower : String) (next : Token) : Parser (List Node) := do
  match lower with
  | "if" => take *> g.ifRule
  | "while" => take *> g.whileRule
  | "do" => take *> g.doRule
  | "for" => take *> g.forRule
  | "foreach" => take *> g.foreachRule
  | "switch" => take *> g.switchRule
  | "try" => take *> g.tryRule
  | "declare" => take *> g.declareRule
  | "return" => take *> g.optionalExpression
  | "break" => take *> g.optionalExpression
  | "continue" => take *> g.optionalExpression
  | "exit" => take *> g.exitRule
  | "unset" => take *> g.unsetRule
  | "use" => take *> importRule
  | "namespace" => take *> g.namespaceRule
  | "const" => take *> g.constants
  | "interface" => take *> g.interfaceRule
  | "trait" => take *> g.traitRule
  | "echo" =>
      let _ ← take
      let values ← commaList g.expression
      semicolon
      return values
  | "global" =>
      let _ ← take
      let held ← commaList g.variableLike
      semicolon
      return held
  | "goto" =>
      let _ ← take
      let name ← anyName
      semicolon
      return [nameNode name]
  | "class" =>
      let _ ← take
      return [← g.classRule]
  | "function" =>
      let named :=
        match next with
        | .name _ _ => true
        | t => t.isSymbol "&"
      if named then
        let declared ← optional? (take *> g.functionRule)
        match declared with
        | some nodes => return nodes
        | none => g.expressionStatement
      else g.expressionStatement
  | "static" =>
      match next with
      | .var _ => take *> g.staticRule
      | _ => g.expressionStatement
  | "enum" =>
      match next with
      | .name _ _ => take *> g.enumRule
      | _ => g.expressionStatement
  | _ =>
      if classModifiers.contains lower && startsClass next then
        let _ ← many (modifier classModifiers)
        keyword "class"
        return [← g.classRule]
      else if next.isSymbol ":" then
        let name ← anyName
        symbol ":"
        return [nameNode name]
      else g.expressionStatement

/-- A statement behind attributes, which a function or an enumeration hands on and a class does
not. -/
def attributedStatement : Parser (List Node) := do
  let declared ← optional? do
    let attrs ← g.attributes
    match ← peek with
    | .name _ lower =>
        if lower = "function" then
          let _ ← take
          return attrs ++ (← g.functionRule)
        else if lower = "enum" then
          let _ ← take
          return attrs ++ (← g.enumRule)
        else if startsClass (← peek) then
          let _ ← many (modifier classModifiers)
          keyword "class"
          return [← g.classRule]
        else if lower = "interface" ∨ lower = "trait" then
          g.keywordStatement lower (← peekAt 1)
        else failure
    | _ => failure
  match declared with
  | some nodes => return nodes
  | none => g.expressionStatement

def statementRule : Parser (List Node) := do
  match ← peek with
  | .symbol ";" =>
      let _ ← take
      return []
  | .symbol "\x7b" => g.block
  | .symbol "#[" => g.attributedStatement
  | .name _ lower => g.keywordStatement lower (← peekAt 1)
  | _ => g.expressionStatement

/-! ## The grammar -/

/-- The grammar in which things may be nested to a depth. -/
def level : Nat → Grammar
  | 0 => empty
  | depth + 1 =>
      let inner := level depth
      { expression := inner.chain true
        assigned := inner.chain false
        operand := inner.operandRule
        targets := inner.targetParts
        statement := inner.statementRule
        members := inner.membersRule }

end Grammar

/-- The nodes of a source file, or `none` where it is no PHP.  Each nested part takes at least one
lexeme, so their number and two more bound the nesting. -/
def parse? (source : String) : Option (List Node) := do
  let lexemes ← lexemes? source.toList
  let statements := Parser.repeated (Grammar.level (lexemes.length + 2)).statement lexemes
  match statements with
  | (nodes, [last]) =>
      match last.token with
      | .finish => some nodes.flatten
      | _ => none
  | _ => none

end Resettle.Php
