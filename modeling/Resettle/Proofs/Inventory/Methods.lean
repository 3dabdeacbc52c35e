import Resettle.Inventory.Classes

/-!
# Methods one by one

What one node adds to the facts about classes.  A constructor only binds handles; every other
method adds one fact, which is made of the method, of the class and of the bindings behind the
method.  No other node adds a fact.
-/

namespace Resettle.ClassRules

open Php (Node)

variable (r : ClassRules) (s : State)

def factOf (name : String) (visibility : Php.Visibility) (params : List String) (body : List Node)
    (summary : String) : MethodFact where
  name := name
  visibility := visibility
  params := params
  dependencies := r.usages (r.bind s.bindings body) body
  views := r.bodyViews body
  tables := r.bodyTables body
  summary := summary
  className := s.facts.name
  parent := s.facts.parent

variable {name : String} (visibility : Php.Visibility) (params : List String) (body : List Node)
  (summary : String)

theorem step_constructor (h : isConstructor name = true) :
    r.step s (.method name visibility params body summary) =
      { s with bindings := r.bind s.bindings body } :=
  if_pos h

theorem step_method (h : isConstructor name = false) :
    r.step s (.method name visibility params body summary) =
      { bindings := r.bind s.bindings body
        facts := { s.facts with
          methods := s.facts.methods ++ [r.factOf s name visibility params body summary]
          tables := (r.bodyTables body).foldl addNew s.facts.tables } } :=
  if_neg (Bool.eq_false_iff.1 h)

theorem name_step_method (name : String) :
    (r.step s (.method name visibility params body summary)).facts.name = s.facts.name := by
  cases hname : isConstructor name with
  | true => rw [step_constructor r s visibility params body summary hname]
  | false => rw [step_method r s visibility params body summary hname]

theorem bindings_step_method (name : String) :
    (r.step s (.method name visibility params body summary)).bindings =
      r.bind s.bindings body := by
  cases hname : isConstructor name with
  | true => rw [step_constructor r s visibility params body summary hname]
  | false => rw [step_method r s visibility params body summary hname]

end Resettle.ClassRules
