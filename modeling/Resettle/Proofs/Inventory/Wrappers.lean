import Resettle.Inventory.Shapes
import Resettle.Proofs.Php.Flattening

/-!
# Wrappers make no difference

Whatever is gathered from trees is gathered from the shapes of their nodes, and wrappers have none.
What looks at a list of nodes at all, the body of a method say, walks it.  So the same is gathered
after the children of a wrapper take its place.
-/

namespace Resettle

open Php (Node Context Nest)

namespace Php.Node.Overlooks

variable {ρ β : Type} {nothing : β}

theorem flatMap {f : ρ → Node → List β} (rules : List ρ) (h : ∀ rule, Overlooks (f rule) []) :
    Overlooks (fun n => rules.flatMap fun rule => f rule n) [] where
  other children := List.flatMap_eq_nil_iff.2 fun rule _ => (h rule).other children
  flatten n := by simp only [(h _).flatten]

theorem filterMap {f : ρ → Node → Option β} (rules : List ρ) (h : ∀ rule, Overlooks (f rule) none) :
    Overlooks (fun n => rules.filterMap fun rule => f rule n) [] where
  other children := List.filterMap_eq_nil_iff.2 fun rule _ => (h rule).other children
  flatten n := by simp only [(h _).flatten]

theorem insertMany {f : Node → List (String × Scalar)} (h : Overlooks f []) :
    Overlooks (fun n (values : Values) => values.insertMany (f n)) id where
  other children := by
    rw [h.other]
    rfl
  flatten n := by rw [h.flatten]

end Php.Node.Overlooks

open Php.Node (Overlooks flattenList flattenEach_eq_map)

/-- A collector gathers the same from flattened trees if it overlooks wrappers node by node. -/
theorem Collector.collect_flattenList {σ α : Type} {c : Collector σ α}
    (h : Overlooks (fun n s => c.step s n) id) (trees : List Node) :
    c.collect (flattenList trees) = c.collect trees :=
  congrArg c.result (Node.foldl_preorderList_flattenList h c.start trees)

/-! ## Settings -/

namespace ConfigShape

theorem overlooks_settings (shape : ConfigShape) : Overlooks shape.settings [] where
  other children := by cases shape <;> rfl
  flatten n := by
    cases shape with
    | elements name =>
        cases n with
        | assign target value =>
            rw [Node.flatten, settings, Node.keyIn?_flatten, Node.literal?_flatten, settings]
        | _ => rfl
    | properties =>
        cases n with
        | property visibility elements =>
            rw [Node.flatten, Node.flattenElements_eq_map, settings, List.filterMap_map, settings]
            congr 1
            funext e
            rcases e with ⟨_, _ | value⟩
            · rfl
            · simp only [Function.comp_apply, Option.map_some, Option.bind_some,
                Node.literal?_flatten]
        | _ => rfl

theorem overlooks_step (shape : ConfigShape) :
    Overlooks (fun n s => shape.collector.step s n) id :=
  shape.overlooks_settings.insertMany

end ConfigShape

namespace DatabaseShape

theorem overlooks_settings (shape : DatabaseShape) : Overlooks shape.settings [] where
  other children := by cases shape <;> rfl
  flatten n := by
    cases shape with
    | group variableName groupName =>
        cases n with
        | assign target value =>
            cases target with
            | subscript base key =>
                cases key with
                | some key =>
                    have houter : (Node.subscript base.flatten (some key.flatten)).keyIn?
                        variableName = (Node.subscript base (some key)).keyIn? variableName :=
                      Node.keyIn?_flatten (.subscript base (some key)) variableName
                    simp only [Node.flatten, Node.flattenOption, settings, houter,
                      Node.keyIn?_flatten, Node.string?_flatten, Node.literal?_flatten,
                      Node.literalItems_flatten]
                | none => rfl
            | _ => rfl
        | _ => rfl
    | property name =>
        cases n with
        | property visibility elements =>
            rw [Node.flatten, Node.flattenElements_eq_map, settings, settings, List.filter_map,
              List.flatMap_map]
            congr 1
            funext e
            rcases e with ⟨_, _ | value⟩
            · rfl
            · simp only [Option.map_some, Option.getD_some, Node.literalItems_flatten]
        | _ => rfl

theorem overlooks_step (shape : DatabaseShape) :
    Overlooks (fun n s => shape.collector.step s n) id :=
  shape.overlooks_settings.insertMany

end DatabaseShape

/-! ## Calls -/

theorem firstString?_flatten (args : List Node) :
    firstString? (args.map Node.flatten) = firstString? args := by
  cases args with
  | nil => rfl
  | cons n rest => exact n.string?_flatten

theorem secondString?_flatten (args : List Node) :
    (args.map Node.flatten)[1]?.bind Node.string? = args[1]?.bind Node.string? := by
  rw [List.getElem?_map]
  cases args[1]? with
  | none => rfl
  | some n => exact n.string?_flatten

theorem helperNames_flatten (args : List Node) :
    helperNames (args.map Node.flatten) = helperNames args := by
  cases args with
  | nil => rfl
  | cons n rest =>
      cases n with
      | array items =>
          simp only [helperNames, List.map_cons, List.head?_cons, Node.flatten,
            Node.flattenItems_eq_map, List.filterMap_map, Function.comp_def, Node.string?_flatten]
      | _ => rfl

namespace CallRule

theorem overlooks_loads (rule : CallRule) : Overlooks rule.loads [] where
  other children := by cases rule <;> rfl
  flatten n := by
    cases rule with
    | loader property =>
        cases n with
        | methodCall object name args =>
            simp only [Node.flatten, loads, flattenEach_eq_map, Node.isOwnProperty_flatten,
              firstString?_flatten, secondString?_flatten, helperNames_flatten]
        | _ => rfl
    | function =>
        cases n with
        | call name args =>
            rw [Node.flatten, flattenEach_eq_map]
            by_cases hhelper : name = "helper"
            · subst hhelper
              simp only [loads, helperNames_flatten]
            by_cases hmodel : name = "model"
            · subst hmodel
              simp only [loads, firstString?_flatten]
            · simp [loads, hhelper, hmodel]
        | assign target value =>
            cases target with
            | fetch object handle =>
                cases value with
                | call name args =>
                    simp only [Node.flatten, flattenEach_eq_map]
                    by_cases hmodel : name = "model"
                    · subst hmodel
                      simp only [loads, Node.isThis_flatten, firstString?_flatten]
                    · simp [loads, hmodel]
                | _ => rfl
            | _ => rfl
        | _ => rfl

theorem overlooks_view? (rule : CallRule) : Overlooks rule.view? none where
  other children := by cases rule <;> rfl
  flatten n := by
    cases rule with
    | loader property =>
        cases n with
        | methodCall object name args =>
            rw [Node.flatten, flattenEach_eq_map]
            by_cases hview : name = "view"
            · subst hview
              simp only [view?, Node.isOwnProperty_flatten, firstString?_flatten]
            · simp [view?, hview]
        | _ => rfl
    | function =>
        cases n with
        | call name args =>
            rw [Node.flatten, flattenEach_eq_map]
            by_cases hview : name = "view"
            · subst hview
              simp only [view?, firstString?_flatten]
            · simp [view?, hview]
        | _ => rfl

end CallRule

theorem TableRule.overlooks_table? (rule : TableRule) : Overlooks rule.table? none where
  other children := rfl
  flatten n := by
    cases n with
    | methodCall object name args =>
        rw [Node.flatten, table?, table?, flattenEach_eq_map, Node.isOwnProperty_flatten,
          firstString?_flatten]
    | _ => rfl

theorem overlooks_ownRead? : Overlooks ownRead? none where
  other children := rfl
  flatten n := by
    cases n with
    | fetch object name => rw [Node.flatten, ownRead?, ownRead?, Node.isThis_flatten]
    | _ => rfl

/-! ## Bodies of methods -/

namespace ClassRules

variable (r : ClassRules) (body : List Node)

theorem bodyLoads_flattenList : r.bodyLoads (flattenList body) = r.bodyLoads body :=
  Node.flatMap_preorderList_flattenList (.flatMap r.loads CallRule.overlooks_loads) body

theorem bodyReads_flattenList : r.bodyReads (flattenList body) = r.bodyReads body := by
  rw [bodyReads, Node.filterMap_preorderList_flattenList overlooks_ownRead?, bodyReads]

theorem bodyViews_flattenList : r.bodyViews (flattenList body) = r.bodyViews body := by
  rw [bodyViews, bodyViews, Node.flatMap_preorderList_flattenList
    (.filterMap r.views CallRule.overlooks_view?)]

theorem bodyTables_flattenList : r.bodyTables (flattenList body) = r.bodyTables body := by
  rw [bodyTables, bodyTables]
  cases r.tables with
  | none => rfl
  | some rule =>
      exact congrArg distinct (Node.filterMap_preorderList_flattenList rule.overlooks_table? body)

theorem bind_flattenList (bindings : Bindings) :
    r.bind bindings (flattenList body) = r.bind bindings body := by
  rw [bind, bind, bodyLoads_flattenList]

theorem usages_flattenList (bindings : Bindings) :
    r.usages bindings (flattenList body) = r.usages bindings body := by
  rw [usages, usages, bodyLoads_flattenList, bodyReads_flattenList]

theorem overlooks_step : Overlooks (fun n s => r.step s n) id where
  other children := rfl
  flatten n := by
    funext s
    cases n with
    | method name visibility params body summary =>
        rw [Node.flatten, step, step, bind_flattenList, bodyTables_flattenList,
          bodyViews_flattenList, usages_flattenList]
    | _ => rfl

end ClassRules

theorem Routes.overlooks_step : Overlooks (fun n s => Routes.step s n) id where
  other children := rfl
  flatten n := by cases n <;> rfl

/-! ## All collectors -/

/-- What each collector gathers from some trees, unless it does not know the generation. -/
structure Gathered where
  config : Except Error Values
  database : Except Error Values
  controllers : Except Error ClassFacts
  models : Except Error ClassFacts
  routes : Except Error (List Route)

namespace Generation

def gather (g : Generation) (trees : List Node) : Gathered where
  config := g.configShape.map fun shape => shape.collector.collect trees
  database := g.databaseShape.map fun shape => shape.collector.collect trees
  controllers := g.controllerRules.map fun rules => rules.collector.collect trees
  models := g.modelRules.map fun rules => rules.collector.collect trees
  routes := g.routeCollector.map fun collector => collector.collect trees

theorem routeCollector_map {α : Type} (g : Generation)
    (f : Collector Routes.State (List Route) → α) :
    g.routeCollector.map f = g.whenKnown (f Routes.collector) (f Routes.collector) := by
  cases g <;> rfl

theorem gather_flattenList (g : Generation) (trees : List Node) :
    g.gather (flattenList trees) = g.gather trees := by
  have hconfig (shape : ConfigShape) := Collector.collect_flattenList shape.overlooks_step trees
  have hdatabase (shape : DatabaseShape) := Collector.collect_flattenList shape.overlooks_step trees
  have hclasses (rules : ClassRules) :=
    Collector.collect_flattenList (c := rules.collector) rules.overlooks_step trees
  have hroutes := Collector.collect_flattenList (c := Routes.collector) Routes.overlooks_step trees
  simp only [gather, hconfig, hdatabase, hclasses, routeCollector_map, hroutes]

/-- No collector of any generation can tell whether the children of a wrapper stand in its place,
in a class, in the body of a method or in another wrapper, however deep in a tree. -/
theorem gather_unwrap (g : Generation) (before after : List Node) (context : Context) (nest : Nest)
    (front children behind : List Node) :
    g.gather (before ++ context.fill (nest.fill (front ++ .other children :: behind)) :: after) =
      g.gather (before ++ context.fill (nest.fill (front ++ children ++ behind)) :: after) := by
  rw [← gather_flattenList, Php.flattenList_unwrap, gather_flattenList]

end Generation

end Resettle
