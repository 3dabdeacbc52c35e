import Resettle.Inventory.Routes
import Resettle.Proofs.Inventory.Methods

/-!
# Routes and methods

Routes are collected without the facts about classes, from the same nodes.  The two collectors stay
in step: node by node they know the same class, and the routes so far are those of the methods so
far.
-/

namespace Resettle

open Php (Node)

namespace Routes

/-- The route to a method: none unless the method is public and its class has a name. -/
def ofMethod? (m : MethodFact) : Option Route :=
  if m.visibility = .publicAccess then
    (m.className.filter (· ≠ "")).map fun controller => Route.ofNames controller m.name
  else none

/-- What both collectors remember of the nodes behind them. -/
structure InStep (s : ClassRules.State) (t : State) : Prop where
  controller : t.controller = s.facts.name
  routes : t.routes = s.facts.methods.filterMap ofMethod?

variable {s : ClassRules.State} {t : State}

theorem inStep_start (r : ClassRules) : InStep r.collector.start collector.start where
  controller := rfl
  routes := rfl

theorem InStep.classDecl (r : ClassRules) (h : InStep s t) (name : String)
    (parent : Option String) (members : List Node) :
    InStep (r.step s (.classDecl name parent members)) (step t (.classDecl name parent members)) where
  controller := rfl
  routes := h.routes

/-- The route that a method adds, if it adds one, is the route to the fact about it. -/
theorem routes_step_method (r : ClassRules) (h : InStep s t) {name : String}
    (hname : ClassRules.isConstructor name = false) (visibility : Php.Visibility)
    (params : List String) (body : List Node) (summary : String) :
    (step t (.method name visibility params body summary)).routes =
      t.routes ++ [r.factOf s name visibility params body summary].filterMap ofMethod? := by
  show (if visibility = .publicAccess ∧ !ClassRules.isConstructor name then _ else t).routes = _
  by_cases hpublic : visibility = .publicAccess
  · rw [if_pos ⟨hpublic, by simp [hname]⟩, h.controller]
    have hroute : ofMethod? (r.factOf s name visibility params body summary) =
        (s.facts.name.filter (· ≠ "")).map fun controller => Route.ofNames controller name :=
      if_pos hpublic
    rw [List.filterMap_cons, hroute]
    cases s.facts.name.filter (· ≠ "") <;> simp
  · have hroute : ofMethod? (r.factOf s name visibility params body summary) = none :=
      if_neg hpublic
    rw [if_neg fun hboth => hpublic hboth.1, List.filterMap_cons, hroute]
    simp

theorem controller_step_method (t : State) (name : String) (visibility : Php.Visibility)
    (params : List String) (body : List Node) (summary : String) :
    (step t (.method name visibility params body summary)).controller = t.controller := by
  show (if visibility = .publicAccess ∧ !ClassRules.isConstructor name then _ else t).controller = _
  split
  · split <;> rfl
  · rfl

theorem InStep.method (r : ClassRules) (h : InStep s t) (name : String)
    (visibility : Php.Visibility) (params : List String) (body : List Node) (summary : String) :
    InStep (r.step s (.method name visibility params body summary))
      (step t (.method name visibility params body summary)) := by
  refine ⟨?_, ?_⟩
  · rw [controller_step_method, ClassRules.name_step_method, h.controller]
  · cases hname : ClassRules.isConstructor name with
    | true =>
        have hskipped : step t (.method name visibility params body summary) = t :=
          if_neg fun hboth => by simp [hname] at hboth
        rw [ClassRules.step_constructor r s visibility params body summary hname, hskipped]
        exact h.routes
    | false =>
        rw [ClassRules.step_method r s visibility params body summary hname,
          routes_step_method r h hname, h.routes]
        exact List.filterMap_append.symm

/-- What one node adds on either side keeps the collectors in step. -/
theorem InStep.step (r : ClassRules) (h : InStep s t) (n : Node) :
    InStep (r.step s n) (Routes.step t n) := by
  cases n with
  | classDecl name parent members => exact h.classDecl r name parent members
  | method name visibility params body summary =>
      exact h.method r name visibility params body summary
  | _ => exact h

theorem InStep.walk (r : ClassRules) (h : InStep s t) (trees : List Node) :
    InStep (r.collector.walk s trees) (collector.walk t trees) := by
  unfold Collector.walk
  induction Node.preorderList trees generalizing s t with
  | nil => exact h
  | cons n nodes ih => exact ih (h.step r n)

/-- The routes of some trees are the routes to the methods of the classes in them, in order. -/
theorem collect_eq_methods (r : ClassRules) (trees : List Node) :
    collector.collect trees = (r.collector.collect trees).methods.filterMap ofMethod? :=
  ((inStep_start r).walk r trees).routes

end Routes

end Resettle
