import Resettle.Php.Node

/-!
# Trees within trees

A frame is a node without one of the trees it is made of.  Frames around one another lead from a
node of a tree up to the root.
-/

namespace Resettle.Php

/-- A node with a hole in place of one of the trees it is made of. -/
inductive Frame where
  | assignTarget (value : Node)
  | assignValue (target : Node)
  | subscriptBase (key : Option Node)
  | subscriptKey (base : Node)
  | itemKey (front : List (Option Node × Node)) (value : Node) (behind : List (Option Node × Node))
  | itemValue (front : List (Option Node × Node)) (key : Option Node)
      (behind : List (Option Node × Node))
  | member (name : String) (parent : Option String) (front behind : List Node)
  | statement (name : String) (visibility : Visibility) (params : List String) (summary : String)
      (front behind : List Node)
  | element (visibility : Visibility) (front : List (String × Option Node)) (name : String)
      (behind : List (String × Option Node))
  | callObject (name : String) (args : List Node)
  | methodArgument (object : Node) (name : String) (front behind : List Node)
  | argument (name : String) (front behind : List Node)
  | fetchObject (name : String)
  | part (front behind : List Node)

def Frame.fill : Frame → Node → Node
  | assignTarget value, n => .assign n value
  | assignValue target, n => .assign target n
  | subscriptBase key, n => .subscript n key
  | subscriptKey base, n => .subscript base (some n)
  | itemKey front value behind, n => .array (front ++ (some n, value) :: behind)
  | itemValue front key behind, n => .array (front ++ (key, n) :: behind)
  | member name parent front behind, n => .classDecl name parent (front ++ n :: behind)
  | statement name visibility params summary front behind, n =>
      .method name visibility params (front ++ n :: behind) summary
  | element visibility front name behind, n =>
      .property visibility (front ++ (name, some n) :: behind)
  | callObject name args, n => .methodCall n name args
  | methodArgument object name front behind, n => .methodCall object name (front ++ n :: behind)
  | argument name front behind, n => .call name (front ++ n :: behind)
  | fetchObject name, n => .fetch n name
  | part front behind, n => .other (front ++ n :: behind)

abbrev Context :=
  List Frame

def Context.fill (c : Context) (n : Node) : Node :=
  c.foldr Frame.fill n

namespace Node

theorem preorderList_eq_flatMap (trees : List Node) :
    preorderList trees = trees.flatMap preorder := by
  induction trees with
  | nil => rfl
  | cons n trees ih => rw [preorderList, ih, List.flatMap_cons]

theorem preorderItems_eq_flatMap (items : List (Option Node × Node)) :
    preorderItems items = items.flatMap fun item => preorderOption item.1 ++ item.2.preorder := by
  induction items with
  | nil => rfl
  | cons item items ih => rw [preorderItems, ih, List.flatMap_cons, List.append_assoc]

theorem preorderElements_eq_flatMap (elements : List (String × Option Node)) :
    preorderElements elements = elements.flatMap fun e => preorderOption e.2 := by
  induction elements with
  | nil => rfl
  | cons e elements ih => rw [preorderElements, ih, List.flatMap_cons]

end Node

end Resettle.Php
