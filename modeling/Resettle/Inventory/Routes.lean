import Resettle.Inventory.Classes

/-!
# Routes

One route for each public method of a controller that is no constructor, suggested by the names of
the class and the method.  The class is the one whose declaration came last.
-/

namespace Resettle

open Php (Node)

namespace Routes

structure State where
  controller : Option String
  routes : List Route

def step (s : State) : Node → State
  | .classDecl name _ _ => { s with controller := some name }
  | .method name visibility _ _ _ =>
      if visibility = .publicAccess ∧ !ClassRules.isConstructor name then
        match s.controller.filter (· ≠ "") with
        | some controller => { s with routes := s.routes ++ [Route.ofNames controller name] }
        | none => s
      else s
  | _ => s

def collector : Collector State (List Route) where
  start := ⟨none, []⟩
  step := step
  result := State.routes

end Routes

end Resettle
