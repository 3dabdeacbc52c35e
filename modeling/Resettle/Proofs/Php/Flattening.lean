import Mathlib.Data.List.Basic
import Resettle.Proofs.Php.Frames

/-!
# Wrappers dissolved

An `other` node in a list of nodes is a wrapper around its children.  Flattening undoes all
wrappers of a tree, so it makes no difference whether one of them has been undone before.  In
document order, the nodes of the flattened tree are those of the tree, each flattened, and only
the `other` nodes may be missing.
-/

namespace Resettle.Php

namespace Node

/-- What stands for a node in a flattened list: the children of an `other` node, or the node. -/
def spread : Node → List Node
  | other children => children
  | n => [n]

theorem flattenList_cons (n : Node) (rest : List Node) :
    flattenList (n :: rest) = n.flatten.spread ++ flattenList rest := by
  cases n <;> rfl

theorem flattenList_append (xs ys : List Node) :
    flattenList (xs ++ ys) = flattenList xs ++ flattenList ys := by
  induction xs with
  | nil => rfl
  | cons n xs ih => rw [List.cons_append, flattenList_cons, ih, flattenList_cons, List.append_assoc]

theorem flattenEach_eq_map (trees : List Node) : flattenEach trees = trees.map flatten := by
  induction trees with
  | nil => rfl
  | cons n trees ih => rw [flattenEach, ih, List.map_cons]

theorem flattenOption_eq_map (tree : Option Node) : flattenOption tree = tree.map flatten := by
  cases tree <;> rfl

theorem flattenItems_eq_map (items : List (Option Node × Node)) :
    flattenItems items = items.map fun item => (item.1.map flatten, item.2.flatten) := by
  induction items with
  | nil => rfl
  | cons item items ih => rw [flattenItems, ih, flattenOption_eq_map, List.map_cons]

theorem flattenElements_eq_map (elements : List (String × Option Node)) :
    flattenElements elements = elements.map fun e => (e.1, e.2.map flatten) := by
  induction elements with
  | nil => rfl
  | cons e elements ih => rw [flattenElements, ih, flattenOption_eq_map, List.map_cons]

end Node

open Node

/-! ## One wrapper -/

/-- A node with a hole in place of a list of nodes in which there may be wrappers. -/
inductive Nest where
  | members (name : String) (parent : Option String)
  | body (name : String) (visibility : Visibility) (params : List String) (summary : String)
  | parts

/-- The node with some nodes in the hole. -/
def Nest.fill : Nest → List Node → Node
  | members name parent, nodes => .classDecl name parent nodes
  | body name visibility params summary, nodes => .method name visibility params nodes summary
  | parts, nodes => .other nodes

theorem Nest.flatten_fill {nodes nodes' : List Node} (nest : Nest)
    (h : flattenList nodes = flattenList nodes') :
    (nest.fill nodes).flatten = (nest.fill nodes').flatten := by
  cases nest <;> simp only [Nest.fill, flatten, h]

theorem Frame.flatten_fill {n n' : Node} (f : Frame) (h : n.flatten = n'.flatten) :
    (f.fill n).flatten = (f.fill n').flatten := by
  cases f <;>
    simp only [Frame.fill, flatten, flattenList_append, flattenList_cons, flattenEach_eq_map,
      flattenOption_eq_map, flattenItems_eq_map, flattenElements_eq_map, List.map_append,
      List.map_cons, Option.map_some, h]

theorem Context.flatten_fill {n n' : Node} (c : Context) (h : n.flatten = n'.flatten) :
    (c.fill n).flatten = (c.fill n').flatten := by
  induction c with
  | nil => exact h
  | cons f c ih => exact f.flatten_fill ih

/-- Trees flatten to the same trees after the children of a wrapper anywhere take its place. -/
theorem flattenList_unwrap (before after : List Node) (c : Context) (nest : Nest)
    (front children behind : List Node) :
    flattenList (before ++ c.fill (nest.fill (front ++ .other children :: behind)) :: after) =
      flattenList (before ++ c.fill (nest.fill (front ++ children ++ behind)) :: after) := by
  have hnest : flattenList (front ++ .other children :: behind) =
      flattenList (front ++ children ++ behind) := by
    rw [flattenList_append, flattenList_append, flattenList_append, List.append_assoc]
    rfl
  have htree := c.flatten_fill (nest.flatten_fill hnest)
  rw [flattenList_append, flattenList_cons, htree, flattenList_append, flattenList_cons]

/-! ## Nodes in document order -/

namespace Node

def isOther : Node → Bool
  | other _ => true
  | _ => false

theorem isOther_flatten (n : Node) : n.flatten.isOther = n.isOther := by
  cases n <;> rfl

/-- The nodes that are no wrappers. -/
def shapes (nodes : List Node) : List Node :=
  nodes.filter fun n => !n.isOther

theorem shapes_append (xs ys : List Node) : shapes (xs ++ ys) = shapes xs ++ shapes ys :=
  List.filter_append xs ys

theorem shapes_cons {n : Node} (h : n.isOther = false) (nodes : List Node) :
    shapes (n :: nodes) = n :: shapes nodes :=
  List.filter_cons_of_pos (by rw [h]; rfl)

theorem shapes_other (children nodes : List Node) :
    shapes (other children :: nodes) = shapes nodes :=
  List.filter_cons_of_neg Bool.false_ne_true

theorem shapes_preorderList_spread (n : Node) :
    shapes (preorderList n.spread) = shapes n.preorder := by
  cases n with
  | other children => exact (shapes_other children _).symm
  | _ => exact congrArg shapes (List.append_nil _)

/-- Some nodes are those of a list, each flattened, but for wrappers here and there. -/
def FlattensTo (nodes nodes' : List Node) : Prop :=
  shapes nodes' = (shapes nodes).map flatten

namespace FlattensTo

variable {xs xs' ys ys' : List Node}

theorem append (hx : FlattensTo xs xs') (hy : FlattensTo ys ys') :
    FlattensTo (xs ++ ys) (xs' ++ ys') := by
  rw [FlattensTo, shapes_append, shapes_append, List.map_append, hx, hy]

theorem shape {n : Node} (hn : n.isOther = false) (h : FlattensTo xs xs') :
    FlattensTo (n :: xs) (n.flatten :: xs') := by
  have hflat : n.flatten.isOther = false := n.isOther_flatten.trans hn
  rw [FlattensTo, shapes_cons hn, shapes_cons hflat, List.map_cons, h]

theorem wrapper {children children' : List Node} (h : FlattensTo xs xs') :
    FlattensTo (other children :: xs) (other children' :: xs') := by
  rw [FlattensTo, shapes_other, shapes_other, h]

theorem spread {n : Node} (h : FlattensTo xs n.preorder) :
    FlattensTo xs (preorderList n.spread) := by
  rw [FlattensTo, shapes_preorderList_spread, h]

end FlattensTo

-- The companions follow those of the traversal and of the flattening.  Wrappers only disappear from
-- the lists that are spread; the arguments of a call stay one for one.
mutual

theorem flattensTo_preorder : ∀ n : Node, FlattensTo n.preorder n.flatten.preorder
  | assign target value => .shape rfl (.append (flattensTo_preorder target)
      (flattensTo_preorder value))
  | subscript base key => .shape rfl (.append (flattensTo_preorder base)
      (flattensTo_preorderOption key))
  | var _ => .shape rfl rfl
  | literal _ => .shape rfl rfl
  | array items => .shape rfl (flattensTo_preorderItems items)
  | classDecl _ _ members => .shape rfl (flattensTo_preorderList members)
  | method _ _ _ body _ => .shape rfl (flattensTo_preorderList body)
  | property _ elements => .shape rfl (flattensTo_preorderElements elements)
  | methodCall object _ args => .shape rfl (.append (flattensTo_preorder object)
      (flattensTo_preorderEach args))
  | call _ args => .shape rfl (flattensTo_preorderEach args)
  | fetch object _ => .shape rfl (flattensTo_preorder object)
  | other children => .wrapper (flattensTo_preorderList children)

theorem flattensTo_preorderList : ∀ trees : List Node,
    FlattensTo (preorderList trees) (preorderList (flattenList trees))
  | [] => rfl
  | n :: trees => by
      rw [flattenList_cons, preorderList_append]
      exact .append (.spread (flattensTo_preorder n)) (flattensTo_preorderList trees)

theorem flattensTo_preorderEach : ∀ trees : List Node,
    FlattensTo (preorderList trees) (preorderList (flattenEach trees))
  | [] => rfl
  | n :: trees => .append (flattensTo_preorder n) (flattensTo_preorderEach trees)

theorem flattensTo_preorderOption : ∀ tree : Option Node,
    FlattensTo (preorderOption tree) (preorderOption (flattenOption tree))
  | none => rfl
  | some n => flattensTo_preorder n

theorem flattensTo_preorderItems : ∀ items : List (Option Node × Node),
    FlattensTo (preorderItems items) (preorderItems (flattenItems items))
  | [] => rfl
  | (key, value) :: items => .append (flattensTo_preorderOption key)
      (.append (flattensTo_preorder value) (flattensTo_preorderItems items))

theorem flattensTo_preorderElements : ∀ elements : List (String × Option Node),
    FlattensTo (preorderElements elements) (preorderElements (flattenElements elements))
  | [] => rfl
  | (_, value) :: elements => .append (flattensTo_preorderOption value)
      (flattensTo_preorderElements elements)

end

/-! ## Readings -/

/-- A reading of nodes that finds nothing in wrappers and does not tell a node from the node
flattened. -/
structure Overlooks {β : Type} (f : Node → β) (nothing : β) : Prop where
  other : ∀ children, f (.other children) = nothing
  flatten : ∀ n, f n.flatten = f n

variable {σ β : Type}

theorem foldl_shapes {step : σ → Node → σ} (h : ∀ s children, step s (other children) = s) (s : σ)
    (nodes : List Node) : (shapes nodes).foldl step s = nodes.foldl step s := by
  induction nodes generalizing s with
  | nil => rfl
  | cons n nodes ih =>
      cases n with
      | other children => rw [shapes_other, ih, List.foldl_cons, h]
      | _ => rw [shapes_cons rfl, List.foldl_cons, ih, List.foldl_cons]

/-- A walk over trees goes through the same states if the trees are flattened. -/
theorem foldl_preorderList_flattenList {step : σ → Node → σ}
    (h : Overlooks (fun n s => step s n) id) (s : σ) (trees : List Node) :
    (preorderList (flattenList trees)).foldl step s = (preorderList trees).foldl step s := by
  have hother (s : σ) (children : List Node) : step s (other children) = s :=
    congrFun (h.other children) s
  have hflatten (s : σ) (n : Node) : step s n.flatten = step s n := congrFun (h.flatten n) s
  rw [← foldl_shapes hother, flattensTo_preorderList trees, List.foldl_map]
  simp only [hflatten]
  exact foldl_shapes hother s _

theorem flatMap_preorderList_flattenList {f : Node → List β} (h : Overlooks f [])
    (trees : List Node) :
    (preorderList (flattenList trees)).flatMap f = (preorderList trees).flatMap f := by
  rw [List.flatMap_eq_foldl, List.flatMap_eq_foldl]
  refine foldl_preorderList_flattenList ⟨fun children => ?_, fun n => ?_⟩ [] trees
  · funext found
    rw [h.other, List.append_nil]
    rfl
  · funext found
    rw [h.flatten]

theorem filterMap_preorderList_flattenList {f : Node → Option β} (h : Overlooks f none)
    (trees : List Node) :
    (preorderList (flattenList trees)).filterMap f = (preorderList trees).filterMap f := by
  rw [List.filterMap_eq_flatMap_toList, List.filterMap_eq_flatMap_toList]
  refine flatMap_preorderList_flattenList ⟨fun children => ?_, fun n => ?_⟩ trees
  · rw [h.other, Option.toList_none]
  · rw [h.flatten]

/-! ## Shapes -/

variable (n : Node)

theorem literal?_flatten : n.flatten.literal? = n.literal? := by
  cases n <;> rfl

theorem string?_flatten : n.flatten.string? = n.string? := by
  rw [string?, literal?_flatten, string?]

theorem isVariable_flatten (name : String) : n.flatten.isVariable name = n.isVariable name := by
  cases n <;> rfl

theorem isThis_flatten : n.flatten.isThis = n.isThis :=
  isVariable_flatten n "this"

theorem isOwnProperty_flatten (property : String) :
    n.flatten.isOwnProperty property = n.isOwnProperty property := by
  cases n with
  | fetch object name => rw [flatten, isOwnProperty, isThis_flatten, isOwnProperty]
  | _ => rfl

theorem keyIn?_flatten (name : String) : n.flatten.keyIn? name = n.keyIn? name := by
  cases n with
  | subscript base key =>
      cases key with
      | some key =>
          rw [flatten, flattenOption, keyIn?, isVariable_flatten, string?_flatten, keyIn?]
      | none => rfl
  | _ => rfl

theorem literalItems_flatten : n.flatten.literalItems = n.literalItems := by
  cases n with
  | array items =>
      rw [flatten, flattenItems_eq_map, literalItems, List.filterMap_map, literalItems]
      congr 1
      funext item
      rcases item with ⟨_ | key, value⟩
      · rfl
      · simp only [Function.comp_apply, Option.map_some, Option.bind_eq_bind, Option.bind_some,
          string?_flatten, literal?_flatten]
  | _ => rfl

end Node

end Resettle.Php
