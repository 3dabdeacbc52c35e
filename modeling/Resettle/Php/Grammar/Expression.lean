import Resettle.Php.Grammar

/-!
# Expressions

The expressions of PHP.  What the tree does not keep apart is read flat: a chain of operands and
binary operators is one `other` node of its operands in order.  An assignment takes its place
among the operands, since its target binds tighter than any operator before it and its value
extends as far as an operand may.
-/

namespace Resettle.Php

namespace Grammar

open Php.Parser

variable (g : Grammar)

/-! ## Operators -/

def binaryOperators : List String :=
  ["+", "-", "*", "/", "%", "**", ".", "<<", ">>", "<", "<=", ">", ">=", "==", "!=", "<>", "===",
    "!==", "<=>", "&", "^", "|", "&&", "||", "??"]

/-- Operators between two operands that bind weaker than an assignment. -/
def weakOperators : List String :=
  ["and", "or", "xor"]

def compoundOperators : List String :=
  ["+=", "-=", "*=", "/=", ".=", "%=", "**=", "<<=", ">>=", "&=", "|=", "^=", "??="]

def castNames : List String :=
  ["array", "binary", "bool", "boolean", "double", "float", "int", "integer", "object", "real",
    "string", "unset"]

/-- Keywords in front of an expression that contribute nothing but the expression. -/
def expressionKeywords : List String :=
  ["print", "throw", "include", "include_once", "require", "require_once"]

/-- A node with a sign in front: a literal number takes the sign in. -/
def signed (sign : Scalar → Option Scalar) : Node → Node
  | .literal value =>
      match sign value with
      | some number => .literal number
      | none => .other [.literal value]
  | n => .other [n]

/-! ## Primaries and what follows them -/

/-- An operand with what matters for what may follow it. -/
structure Primary where
  node : Node
  /-- The name under which the operand can be called as a function. -/
  callee : Option String
  /-- Whether a value can be assigned to it. -/
  assignable : Bool
  /-- Whether an element, a member or a call may follow. -/
  «open» : Bool

/-- An operand that nothing may follow. -/
def Primary.closed (node : Node) : Primary :=
  ⟨node, none, false, false⟩

def Primary.value (node : Node) : Primary :=
  ⟨node, none, false, true⟩

def Primary.place (node : Node) : Primary :=
  ⟨node, none, true, true⟩

/-- A variable whose name is computed, from behind its first dollar sign. -/
def dynamicVariable : Nat → Parser Node
  | 0 => failure
  | depth + 1 => do
      match ← peek with
      | .var name =>
          let _ ← take
          return .other [.var name]
      | .symbol "\x7b" =>
          let _ ← take
          let value ← g.expression
          symbol "\x7d"
          return .other [value]
      | .symbol "$" =>
          let _ ← take
          return .other [← dynamicVariable depth]
      | _ => failure

def variableLike : Parser Node := do
  match ← peek with
  | .var name =>
      let _ ← take
      return .var name
  | .symbol "$" =>
      let _ ← take
      let depth := (← get).length
      g.dynamicVariable depth
  | _ => failure

/-- The name of a member behind an arrow: a name, or a node that computes one. -/
def memberName : Parser (String ⊕ Node) := do
  match ← peek with
  | .name spelled _ =>
      let _ ← take
      return .inl spelled
  | .symbol "\x7b" =>
      let _ ← take
      let value ← g.expression
      symbol "\x7d"
      return .inr value
  | _ => return .inr (← g.variableLike)

/-- A member of an object behind its arrow, called or fetched. -/
def member (object : Node) : Parser Primary := do
  let name ← g.memberName
  if ← nextIs "(" then
    let args ← g.arguments
    match name with
    | .inl name => return .place (.methodCall object name (argumentValues args))
    | .inr computed => return .place (.other (object :: computed :: argumentParts args))
  else
    match name with
    | .inl name => return .place (.fetch object name)
    | .inr computed => return .place (.other [object, computed])

def staticMember (scope : Node) : Parser Primary := do
  let (name, isProperty) ←
    match ← peek with
    | .name spelled _ => do
        let _ ← take
        pure (nameNode spelled, false)
    | .symbol "\x7b" => do
        let _ ← take
        let value ← g.expression
        symbol "\x7d"
        pure (value, false)
    | _ => do
        let node ← g.variableLike
        pure (node, true)
  if ← nextIs "(" then
    let args ← g.arguments
    return .place (.other (scope :: name :: argumentParts args))
  else if isProperty then return .place (.other [scope, name])
  else return .value (.other [scope, name])

def element (base : Node) : Parser Primary := do
  if ← accept "]" then
    return .place (.subscript base none)
  else
    let key ← g.expression
    symbol "]"
    return .place (.subscript base (some key))

def bracedElement (base : Node) : Parser Primary := do
  symbol "\x7b"
  let key ← g.expression
  symbol "\x7d"
  return .place (.subscript base (some key))

def callOf (p : Primary) : Parser Primary := do
  let args ← g.arguments
  match p.callee with
  | some name =>
      let name := String.ofList (name.toList.dropWhile (· = '\\'))
      return .place (.call name (argumentValues args))
  | none => return .place (.other (p.node :: argumentParts args))

/-- One element, member or call behind an operand; calls are left alone where `calls` is false. -/
def postfixStep (calls : Bool) (p : Primary) : Parser Primary := do
  if !p.open || (← nextHasGap) then failure
  match ← peek with
  | .symbol "[" =>
      let _ ← take
      g.element p.node
  | .symbol "\x7b" => g.bracedElement p.node
  | .symbol "->" =>
      let _ ← take
      if calls then g.member p.node else plainMember p.node
  | .symbol "?->" =>
      let _ ← take
      if calls then g.member p.node else plainMember p.node
  | .symbol "::" =>
      let _ ← take
      if calls then g.staticMember p.node
      else return .place (.other [p.node, ← g.variableLike])
  | .symbol "(" => if calls then g.callOf p else failure
  | _ => failure
where
  /-- A member that is fetched, although a call might follow. -/
  plainMember (object : Node) : Parser Primary := do
    match ← g.memberName with
    | .inl name => return .place (.fetch object name)
    | .inr computed => return .place (.other [object, computed])

/-- All elements, members and calls behind an operand, at most `fuel` of them. -/
def postfixes (calls : Bool) : Nat → Primary → Parser Primary
  | 0, p => return p
  | fuel + 1, p => do
      match ← optional? (g.postfixStep calls p) with
      | some q => postfixes calls fuel q
      | none => return p

/-! ## Arrays and lists -/

/-- An item of an array: spread, taken by reference, or a value with or without a key. -/
def arrayItem : Parser (Option Node × Node) := do
  if ← accept "..." then
    return (none, .other [← g.expression])
  else if ← accept "&" then
    return (none, .other [← g.operand false])
  else
    let first ← g.expression
    if ← accept "=>" then
      if ← accept "&" then
        return (some first, .other [← g.operand false])
      else
        return (some first, ← g.expression)
    else
      return (none, first)

/-- Whether the bracket at the front of a list of lexemes is closed in front of an equals sign;
`depth` counts the brackets that are open. -/
def closesBeforeEquals : Nat → List Lexeme → Bool
  | _, [] => false
  | depth, l :: rest =>
      match l.token with
      | .symbol s =>
          if s = "(" ∨ s = "[" ∨ s = "\x7b" ∨ s = "#[" then closesBeforeEquals (depth + 1) rest
          else if s = ")" ∨ s = "]" ∨ s = "\x7d" then
            if depth ≤ 1 then
              match rest with
              | next :: _ => next.token.isSymbol "="
              | [] => false
            else closesBeforeEquals (depth - 1) rest
          else closesBeforeEquals depth rest
      | _ => closesBeforeEquals depth rest

/-- The opening of a list that is assigned to, and the symbol that closes it. -/
def targetsOpening : Parser String := do
  if ← accept "[" then return "]"
  else
    keyword "list"
    symbol "("
    return ")"

/-- Whether a list that is assigned to could start here. -/
def atTargets : Parser Bool := do
  if ← nextIs "[" then return true
  else
    let next ← peekAt 1
    return (← nextIsKeyword "list") && next.isSymbol "("

/-! ## Functions, classes and other openings -/

/-- Variables that a closure takes along, those taken by reference being wrapped. -/
def uses : Parser (List Node) := do
  if ← acceptKeyword "use" then
    symbol "("
    listUpTo ")" do
      if ← accept "&" then return .other [.var (← anyVariable)]
      else return .var (← anyVariable)
  else
    return []

def closure : Parser (List Node) := do
  let _ ← acceptKeyword "static"
  if ← acceptKeyword "fn" then
    let _ ← accept "&"
    let params ← g.parameters
    returnType
    symbol "=>"
    return parameterParts params ++ [← g.expression]
  else
    keyword "function"
    let _ ← accept "&"
    let params ← g.parameters
    let taken ← uses
    returnType
    return parameterParts params ++ taken ++ (← g.block)

def names : Parser (List Node) := do
  return (← commaList anyQualified).map nameNode

def inheritance : Parser (List Node) := do
  let extended ← if ← acceptKeyword "extends" then names else pure []
  let implemented ← if ← acceptKeyword "implements" then names else pure []
  return extended ++ implemented

def anonymousClass : Parser (List Node) := do
  let args ← if ← nextIs "(" then g.arguments else pure []
  let inherited ← inheritance
  return argumentParts args ++ inherited ++ (← g.members false)

/-- What is created by `new`, behind the keyword.  With arguments it may be used at once. -/
def creation : Parser Primary := do
  let attrs ← g.attributes
  let _ ← many (modifier ["final", "readonly", "abstract"])
  if ← acceptKeyword "class" then
    return .value (.other (attrs ++ (← g.anonymousClass)))
  else
    let reference ←
      match ← peek with
      | .symbol "(" => do
          let value ← g.parenthesized
          pure value
      | .name spelled _ => do
          let _ ← take
          let fuel := (← get).length
          pure (← g.postfixes false fuel ⟨nameNode spelled, none, false, ← nextIs "::"⟩).node
      | .qualified text => do
          let _ ← take
          let fuel := (← get).length
          pure (← g.postfixes false fuel ⟨nameNode text, none, false, ← nextIs "::"⟩).node
      | _ => do
          let node ← g.variableLike
          let fuel := (← get).length
          pure (← g.postfixes false fuel (.place node)).node
    if ← nextIs "(" then
      let args ← g.arguments
      return .value (.other (reference :: argumentParts args))
    else
      return .closed (.other [reference])

def matchArm : Parser (List Node) := do
  let next ← peekAt 1
  let conditions ←
    if (← nextIsKeyword "default") && (next.isSymbol "=>" || next.isSymbol ",") then do
      keyword "default"
      let _ ← accept ","
      pure []
    else do
      let values ← commaList g.expression
      let _ ← accept ","
      pure values
  symbol "=>"
  return conditions ++ [← g.expression]

def matchParts : Parser (List Node) := do
  let subject ← g.parenthesized
  symbol "\x7b"
  let arms ← listUpTo "\x7d" g.matchArm
  return subject :: arms.flatten

def templateParts : Parser (List Node) := do
  let parts ← many do
    match ← peek with
    | .embedded node =>
        let _ ← take
        return node
    | _ =>
        symbol "\x7b"
        let value ← g.expression
        symbol "\x7d"
        return value
  match ← peek with
  | .templateClose =>
      let _ ← take
      return parts
  | _ => failure

/-- A name in an expression: an array or a `match` if it opens one, else a bare name. -/
def namePrimary (spelled lower : String) : Parser Primary := do
  let next ← peekAt 1
  if lower = "array" ∧ next.isSymbol "(" then
    let _ ← take
    let _ ← take
    return .value (.array (← listUpTo ")" g.arrayItem))
  else if lower = "fn" ∨ (lower = "function" ∨ lower = "static" ∧
      (next.isKeyword "function" || next.isKeyword "fn")) then
    return .closed (.other (← g.closure))
  else if lower = "new" then
    let _ ← take
    g.creation
  else if lower = "match" ∧ next.isSymbol "(" then
    let _ ← take
    return .closed (.other (← g.matchParts))
  else
    let _ ← take
    return ⟨nameNode spelled, some spelled, false, true⟩

def primary : Parser Primary := do
  match ← peek with
  | .name spelled lower => g.namePrimary spelled lower
  | .qualified text =>
      let _ ← take
      return ⟨nameNode text, some text, false, true⟩
  | .number node =>
      let _ ← take
      return .closed node
  | .text node =>
      let _ ← take
      return .value node
  | .templateOpen =>
      let _ ← take
      return .value (.other (← g.templateParts))
  | .symbol "(" => return .value (← g.parenthesized)
  | .symbol "[" =>
      let _ ← take
      return .value (.array (← listUpTo "]" g.arrayItem))
  | .symbol "#[" =>
      let attrs ← g.attributes
      return .closed (.other (attrs ++ (← g.closure)))
  | _ => return .place (← g.variableLike)

def postfixed : Parser Primary := do
  let p ← g.primary
  let fuel := (← get).length
  g.postfixes true fuel p

def place : Parser Primary := do
  let p ← g.postfixed
  if p.assignable then return p else failure

/-! ## Lists that are assigned to -/

def target : Parser Node := do
  if ← atTargets then
    let close ← targetsOpening
    return .other (← g.targets close)
  else if ← accept "&" then
    return .other [(← g.place).node]
  else
    return (← g.place).node

/-- One entry of a list that is assigned to; an entry may be left out. -/
def targetEntry : Parser (List Node) := do
  let next ← peek
  if next.isSymbol "," || next.isSymbol "]" || next.isSymbol ")" then
    return []
  else
    let keyed ← optional? do
      let key ← g.expression
      symbol "=>"
      return key
    match keyed with
    | some key => return [key, ← g.target]
    | none => return [← g.target]

def targetParts (close : String) : Parser (List Node) := do
  let first ← g.targetEntry
  let more ← many do
    symbol ","
    g.targetEntry
  symbol close
  return (first :: more).flatten

/-! ## Assignments, operands and chains -/

/-- An operand as the target of an assignment, or alone.  A sign that counts up or down may follow
a place. -/
def assignment (target : Primary) : Parser Node := do
  if !target.assignable || (← nextHasGap) then return target.node
  match ← peek with
  | .symbol "=" =>
      let _ ← take
      if ← accept "&" then
        return .other [target.node, ← g.assigned]
      else
        return .assign target.node (← g.assigned)
  | .symbol s =>
      if compoundOperators.contains s then
        let _ ← take
        return .other [target.node, ← g.assigned]
      else return target.node
  | _ => return target.node

def counted (p : Primary) : Parser Primary := do
  if p.assignable && !(← nextHasGap) then
    if ← accept "++" then return .closed (.other [p.node])
    else if ← accept "--" then return .closed (.other [p.node])
    else return p
  else return p

def plainOperand (assigns : Bool) : Parser Node := do
  if (← atTargets) && closesBeforeEquals 0 (← get) then
    if assigns then
      let close ← targetsOpening
      let parts ← g.targets close
      symbol "="
      if ← accept "&" then
        return .other (parts ++ [← g.assigned])
      else
        return .assign (.other parts) (← g.assigned)
    else failure
  else if (← nextIsKeyword "list") && (← peekAt 1).isSymbol "(" then failure
  else
    let p ← g.postfixed
    let p ← counted p
    if assigns then g.assignment p else return p.node

def yielded : Parser (List Node) := do
  if ← acceptKeyword "from" then
    return [← g.expression]
  else
    let value ← optional? do
      let first ← g.expression
      if ← accept "=>" then return [first, ← g.expression]
      else return [first]
    return value.getD []

/-- Whether a cast starts here: the name of a type in parentheses. -/
def atCast : Parser Bool := do
  match ← peek, ← peekAt 1, ← peekAt 2 with
  | .symbol "(", .name _ lower, .symbol ")" => return castNames.contains lower
  | _, _, _ => return false

/-- An operand behind a cast.  A place that is cast may be assigned to. -/
def castOperand (assigns : Bool) : Parser Node := do
  let next ← peek
  if next.isVariable || next.isSymbol "$" then
    let p ← counted (← g.postfixed)
    let cast : Node := .other [p.node]
    if assigns && p.assignable then g.assignment (.place cast) else return cast
  else
    return .other [← g.operand false]

def operandRule (assigns : Bool) : Parser Node := do
  if ← atCast then
    let _ ← take
    let _ ← take
    let _ ← take
    g.castOperand assigns
  else
    match ← peek with
    | .symbol "-" =>
        let _ ← take
        return signed Literal.negate? (← g.operand assigns)
    | .symbol "+" =>
        let _ ← take
        return signed Literal.affirm? (← g.operand assigns)
    | .symbol s =>
        if s = "!" ∨ s = "~" ∨ s = "@" then
          let _ ← take
          return .other [← g.operand assigns]
        else if s = "++" ∨ s = "--" then
          let _ ← take
          return .other [(← g.place).node]
        else g.plainOperand assigns
    | .name _ lower =>
        if expressionKeywords.contains lower then
          let _ ← take
          return .other [← g.expression]
        else if lower = "clone" then
          let _ ← take
          return .other [← g.operand false]
        else if lower = "yield" then
          let _ ← take
          return .other (← g.yielded)
        else g.plainOperand assigns
    | _ => g.plainOperand assigns

/-- What follows an operand in a chain: an operator and the operands that it adds. -/
def chainStep (weak : Bool) : Parser (List Node) := do
  if ← nextHasGap then failure
  match ← peek with
  | .symbol "?" =>
      let _ ← take
      if ← accept ":" then
        return [← g.operandRule true]
      else
        let middle ← g.expression
        symbol ":"
        return [middle, ← g.operandRule true]
  | .symbol s =>
      if binaryOperators.contains s then
        let _ ← take
        return [← g.operandRule true]
      else failure
  | .name _ lower =>
      if lower = "instanceof" then
        let _ ← take
        return [← g.operandRule false]
      else if weak && weakOperators.contains lower then
        let _ ← take
        return [← g.operandRule true]
      else failure
  | _ => failure

/-- An expression; `weak` admits the operators that bind weaker than an assignment. -/
def chain (weak : Bool) : Parser Node := do
  let first ← g.operandRule true
  let more ← many (g.chainStep weak)
  match more.flatten with
  | [] => return first
  | rest => return .other (first :: rest)

end Grammar

end Resettle.Php
