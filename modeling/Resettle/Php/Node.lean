import Resettle.Scalar

/-!
# Syntax trees of PHP source

The tree that the inventory works on.  It keeps the shapes from which settings, classes and
dependencies are read; everything else is an `other` node that only holds its parts.  `preorder`
lists a tree's nodes in document order, and `flatten` dissolves the `other` nodes of a list.
-/

namespace Resettle.Php

/-- Who may call a method. -/
inductive Visibility where
  | publicAccess
  | protectedAccess
  | privateAccess
deriving DecidableEq, Repr

namespace Visibility

instance : Inhabited Visibility :=
  ⟨publicAccess⟩

def keyword : Visibility → String
  | publicAccess => "public"
  | protectedAccess => "protected"
  | privateAccess => "private"

/-- The visibility with a keyword, in any letter case. -/
def ofKeyword? (s : String) : Option Visibility :=
  match String.ofList (s.toList.map Char.toLower) with
  | "public" => some publicAccess
  | "protected" => some protectedAccess
  | "private" => some privateAccess
  | _ => none

end Visibility

inductive Node where
  /-- An assignment of a value to a target. -/
  | assign (target value : Node)
  /-- A base followed by a key in brackets. -/
  | subscript (base : Node) (key : Option Node)
  /-- A variable, named without its dollar sign. -/
  | var (name : String)
  /-- A literal. -/
  | literal (value : Scalar)
  /-- An array written out, each item with its key if it has one. -/
  | array (items : List (Option Node × Node))
  /-- A class with its members. -/
  | classDecl (name : String) (parent : Option String) (members : List Node)
  /-- A method; the summary is its body as text. -/
  | method (name : String) (visibility : Visibility) (params : List String) (body : List Node)
      (summary : String)
  /-- A property statement with its elements and their default values. -/
  | property (visibility : Visibility) (elements : List (String × Option Node))
  /-- A call of a named method of an object. -/
  | methodCall (object : Node) (name : String) (args : List Node)
  /-- A call of a named function. -/
  | call (name : String) (args : List Node)
  /-- A named property of an object. -/
  | fetch (object : Node) (name : String)
  /-- Anything else, with the nodes inside it. -/
  | other (children : List Node)
deriving Repr

namespace Node

instance : Inhabited Node :=
  ⟨other []⟩

mutual

/-- A node and all nodes below it in document order. -/
def preorder : Node → List Node
  | n@(assign target value) => n :: (target.preorder ++ value.preorder)
  | n@(subscript base key) => n :: (base.preorder ++ preorderOption key)
  | n@(var _) => [n]
  | n@(literal _) => [n]
  | n@(array items) => n :: preorderItems items
  | n@(classDecl _ _ members) => n :: preorderList members
  | n@(method _ _ _ body _) => n :: preorderList body
  | n@(property _ elements) => n :: preorderElements elements
  | n@(methodCall object _ args) => n :: (object.preorder ++ preorderList args)
  | n@(call _ args) => n :: preorderList args
  | n@(fetch object _) => n :: object.preorder
  | n@(other children) => n :: preorderList children

def preorderList : List Node → List Node
  | [] => []
  | n :: rest => n.preorder ++ preorderList rest

def preorderOption : Option Node → List Node
  | none => []
  | some n => n.preorder

/-- The nodes of the items of an array, each key before its value. -/
def preorderItems : List (Option Node × Node) → List Node
  | [] => []
  | (key, value) :: rest => preorderOption key ++ (value.preorder ++ preorderItems rest)

def preorderElements : List (String × Option Node) → List Node
  | [] => []
  | (_, value) :: rest => preorderOption value ++ preorderElements rest

end

mutual

/-- The tree with `other` nodes dissolved wherever a list of nodes may hold their children. -/
def flatten : Node → Node
  | assign target value => assign target.flatten value.flatten
  | subscript base key => subscript base.flatten (flattenOption key)
  | var name => var name
  | literal value => literal value
  | array items => array (flattenItems items)
  | classDecl name parent members => classDecl name parent (flattenList members)
  | method name visibility params body summary =>
      method name visibility params (flattenList body) summary
  | property visibility elements => property visibility (flattenElements elements)
  | methodCall object name args => methodCall object.flatten name (flattenEach args)
  | call name args => call name (flattenEach args)
  | fetch object name => fetch object.flatten name
  | other children => other (flattenList children)

/-- The trees of a list, each `other` node being replaced by its children. -/
def flattenList : List Node → List Node
  | [] => []
  | other children :: rest => flattenList children ++ flattenList rest
  | n :: rest => n.flatten :: flattenList rest

/-- The trees of a list, one for one. -/
def flattenEach : List Node → List Node
  | [] => []
  | n :: rest => n.flatten :: flattenEach rest

def flattenOption : Option Node → Option Node
  | none => none
  | some n => some n.flatten

def flattenItems : List (Option Node × Node) → List (Option Node × Node)
  | [] => []
  | (key, value) :: rest => (flattenOption key, value.flatten) :: flattenItems rest

def flattenElements : List (String × Option Node) → List (String × Option Node)
  | [] => []
  | (name, value) :: rest => (name, flattenOption value) :: flattenElements rest

end

/-! ## Shapes -/

def literal? : Node → Option Scalar
  | literal value => some value
  | _ => none

def string? (n : Node) : Option String :=
  n.literal?.bind Scalar.asString?

def isVariable (name : String) : Node → Bool
  | var v => v == name
  | _ => false

def isThis (n : Node) : Bool :=
  n.isVariable "this"

/-- Whether a node is a certain property of the object that a method belongs to. -/
def isOwnProperty (property : String) : Node → Bool
  | fetch object name => object.isThis && name == property
  | _ => false

/-- The key of an element of a certain variable, if it is a string literal. -/
def keyIn? (variableName : String) : Node → Option String
  | subscript base (some key) => if base.isVariable variableName then key.string? else none
  | _ => none

/-- The items of an array that have a string literal as key and a literal as value. -/
def literalItems : Node → List (String × Scalar)
  | array items => items.filterMap fun item => do
      let key ← (← item.1).string?
      let value ← item.2.literal?
      return (key, value)
  | _ => []

theorem preorderList_append (xs ys : List Node) :
    preorderList (xs ++ ys) = preorderList xs ++ preorderList ys := by
  induction xs with
  | nil => rfl
  | cons n xs ih => simp [preorderList, ih]

end Node

end Resettle.Php
