import Resettle.Proofs.Distinct
import Resettle.Proofs.Inventory.Dependencies

/-!
# Methods in order

The facts about methods are added one by one, from the first node to the last.  So there is one
fact for each listed method, at the place that the method has among the listed ones, and the fact
is made in the state behind the nodes in front of the method.  The tables of a class are those of
its methods.
-/

namespace Resettle.ClassRules

open Php (Node)

variable (r : ClassRules)

def fact? (s : State) : Node → Option MethodFact
  | .method name visibility params body summary =>
      if isConstructor name then none else some (r.factOf s name visibility params body summary)
  | _ => none

/-- The facts that some nodes add when they are met one by one. -/
def factsFrom (s : State) : List Node → List MethodFact
  | [] => []
  | n :: nodes => (r.fact? s n).toList ++ factsFrom (r.step s n) nodes

/-! ## One node -/

variable (s : State)

theorem fact?_constructor {name : String} (h : isConstructor name = true)
    (visibility : Php.Visibility) (params : List String) (body : List Node) (summary : String) :
    r.fact? s (.method name visibility params body summary) = none :=
  if_pos h

theorem fact?_method {name : String} (h : isConstructor name = false) (visibility : Php.Visibility)
    (params : List String) (body : List Node) (summary : String) :
    r.fact? s (.method name visibility params body summary) =
      some (r.factOf s name visibility params body summary) :=
  if_neg (Bool.eq_false_iff.1 h)

theorem isSome_fact? (n : Node) : (r.fact? s n).isSome = isListed n := by
  cases n with
  | method name visibility params body summary =>
      rw [isListed]
      cases hname : isConstructor name with
      | true => rw [fact?_constructor r s hname]; rfl
      | false => rw [fact?_method r s hname]; rfl
  | _ => rfl

theorem methods_step (n : Node) :
    (r.step s n).facts.methods = s.facts.methods ++ (r.fact? s n).toList := by
  cases n with
  | method name visibility params body summary =>
      cases hname : isConstructor name with
      | true =>
          rw [step_constructor r s visibility params body summary hname,
            fact?_constructor r s hname]
          exact (List.append_nil _).symm
      | false =>
          rw [step_method r s visibility params body summary hname, fact?_method r s hname]
          rfl
  | _ => exact (List.append_nil _).symm

theorem tables_step (n : Node) :
    (r.step s n).facts.tables =
      ((r.fact? s n).toList.flatMap MethodFact.tables).foldl addNew s.facts.tables := by
  cases n with
  | method name visibility params body summary =>
      cases hname : isConstructor name with
      | true =>
          rw [step_constructor r s visibility params body summary hname,
            fact?_constructor r s hname]
          rfl
      | false =>
          rw [step_method r s visibility params body summary hname, fact?_method r s hname]
          simp only [Option.toList_some, List.flatMap_singleton]
          rfl
  | _ => rfl

/-! ## All nodes -/

theorem methods_foldl (nodes : List Node) :
    (nodes.foldl r.step s).facts.methods = s.facts.methods ++ r.factsFrom s nodes := by
  induction nodes generalizing s with
  | nil => exact (List.append_nil _).symm
  | cons n nodes ih =>
      rw [List.foldl_cons, ih, methods_step, factsFrom, List.append_assoc]

theorem methods_collect (trees : List Node) :
    (r.collector.collect trees).methods =
      r.factsFrom r.collector.start (Node.preorderList trees) :=
  methods_foldl r _ _

theorem factsFrom_append (front behind : List Node) :
    r.factsFrom s (front ++ behind) =
      r.factsFrom s front ++ r.factsFrom (front.foldl r.step s) behind := by
  induction front generalizing s with
  | nil => rfl
  | cons n front ih =>
      rw [List.cons_append, factsFrom, ih, factsFrom, List.append_assoc, List.foldl_cons]

theorem length_factsFrom (nodes : List Node) :
    (r.factsFrom s nodes).length = nodes.countP isListed := by
  induction nodes generalizing s with
  | nil => rfl
  | cons n nodes ih =>
      rw [factsFrom, List.length_append, ih, List.countP_cons, ← isSome_fact? r s n, Nat.add_comm]
      cases r.fact? s n <;> rfl

theorem length_methods (trees : List Node) :
    (r.collector.collect trees).methods.length = (Node.preorderList trees).countP isListed := by
  rw [methods_collect, length_factsFrom]

variable {r}

/-- A listed method has its fact at the place that it has among the listed methods. -/
theorem getElem?_methods {trees front behind : List Node} {n : Node} {fact : MethodFact}
    (hcut : Node.preorderList trees = front ++ n :: behind)
    (hfact : r.fact? (front.foldl r.step r.collector.start) n = some fact) :
    (r.collector.collect trees).methods[front.countP isListed]? = some fact := by
  rw [methods_collect, hcut, factsFrom_append, ← length_factsFrom r r.collector.start,
    List.getElem?_append_right (Nat.le_refl _), Nat.sub_self, factsFrom, hfact]
  rfl

theorem exists_cut_of_mem {trees : List Node} {fact : MethodFact}
    (h : fact ∈ (r.collector.collect trees).methods) :
    ∃ front n behind, Node.preorderList trees = front ++ n :: behind ∧
      r.fact? (front.foldl r.step r.collector.start) n = some fact := by
  rw [methods_collect] at h
  generalize r.collector.start = s at h ⊢
  generalize Node.preorderList trees = nodes at h ⊢
  induction nodes generalizing s with
  | nil => cases h
  | cons n nodes ih =>
      rcases List.mem_append.1 h with hfirst | hlater
      · exact ⟨[], n, nodes, rfl, Option.mem_toList.1 hfirst⟩
      · obtain ⟨front, n', behind, rfl, hfact⟩ := ih _ hlater
        exact ⟨n :: front, n', behind, rfl, hfact⟩

variable (r)

theorem tables_foldl {nodes : List Node}
    (h : s.facts.tables = distinct (s.facts.methods.flatMap MethodFact.tables)) :
    (nodes.foldl r.step s).facts.tables =
      distinct ((nodes.foldl r.step s).facts.methods.flatMap MethodFact.tables) := by
  induction nodes generalizing s with
  | nil => exact h
  | cons n nodes ih =>
      apply ih
      rw [tables_step, methods_step, List.flatMap_append, distinct_append, h]

/-- The tables of a class are those of its methods, later repetitions left out. -/
theorem tables_collect (trees : List Node) :
    (r.collector.collect trees).tables =
      distinct ((r.collector.collect trees).methods.flatMap MethodFact.tables) :=
  tables_foldl r _ rfl

end Resettle.ClassRules
