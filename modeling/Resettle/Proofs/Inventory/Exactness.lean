import Resettle.Proofs.Inventory.MethodFacts

/-!
# Exact facts

The facts about the classes among some trees leave nothing out, add nothing and repeat nothing.
There is one fact for each method that is no constructor, in document order.  It lists the views
that the body renders and the tables that it names, in the order in which they first occur, and the
tables of the class are those of its methods.
-/

namespace Resettle

open Php (Node)

/-! ## Calls -/

/-- The calls that render a view under a rule: `view` as a method of an own property or as a
function, with the name of the view as the first argument. -/
inductive CallRule.Renders : CallRule → Node → String → Prop
  | loader {property view : String} {rest : List Node} :
      Renders (.loader property) (.methodCall (.own property) "view" (.text view :: rest)) view
  | function {view : String} {rest : List Node} :
      Renders .function (.call "view" (.text view :: rest)) view

/-- The calls that name a table under a rule: one of its methods, called of its own property, with
the name of the table as the first argument. -/
inductive TableRule.Queries (rule : TableRule) : Node → String → Prop
  | call {method table : String} {rest : List Node} (h : method ∈ rule.methods) :
      rule.Queries (.methodCall (.own rule.property) method (.text table :: rest)) table

theorem CallRule.view?_eq_some_iff {rule : CallRule} {n : Node} {view : String} :
    rule.view? n = some view ↔ rule.Renders n view := by
  constructor
  · intro h
    unfold CallRule.view? at h
    split at h
    · obtain ⟨hown, hfirst⟩ := Option.ite_none_right_eq_some.1 h
      obtain ⟨rest, rfl⟩ := firstString?_eq_some_iff.1 hfirst
      rw [Node.isOwnProperty_iff.1 hown]
      exact .loader
    · obtain ⟨rest, rfl⟩ := firstString?_eq_some_iff.1 h
      exact .function
    · cases h
  · intro h
    cases h with
    | loader =>
        show (if (Node.own _).isOwnProperty _ then _ else none) = _
        rw [if_pos (Node.isOwnProperty_iff.2 rfl)]
        exact firstString?_eq_some_iff.2 ⟨_, rfl⟩
    | function => exact firstString?_eq_some_iff.2 ⟨_, rfl⟩

theorem TableRule.table?_eq_some_iff {rule : TableRule} {n : Node} {table : String} :
    rule.table? n = some table ↔ rule.Queries n table := by
  constructor
  · intro h
    unfold TableRule.table? at h
    split at h
    · obtain ⟨hquery, hfirst⟩ := Option.ite_none_right_eq_some.1 h
      obtain ⟨hmethod, hown⟩ := Bool.and_eq_true_iff.1 hquery
      obtain ⟨rest, rfl⟩ := firstString?_eq_some_iff.1 hfirst
      rw [Node.isOwnProperty_iff.1 hown]
      exact .call (List.contains_iff_mem.1 hmethod)
    · cases h
  · rintro ⟨hmethod⟩
    have hquery : (rule.methods.contains _ &&
        (Node.own rule.property).isOwnProperty rule.property) = true :=
      Bool.and_eq_true_iff.2 ⟨List.contains_iff_mem.2 hmethod, Node.isOwnProperty_iff.2 rfl⟩
    show (if _ then _ else none) = _
    rw [if_pos hquery]
    exact firstString?_eq_some_iff.2 ⟨_, rfl⟩

/-- A node renders one view, whatever rule it is looked at under. -/
theorem CallRule.Renders.unique {rule rule' : CallRule} {n : Node} {view view' : String}
    (h : rule.Renders n view) (h' : rule'.Renders n view') : view = view' := by
  cases h <;> cases h' <;> rfl

namespace ClassRules

variable (r : ClassRules)

/-- A node renders a view under one of the rules. -/
def Renders (n : Node) (view : String) : Prop :=
  ∃ rule ∈ r.views, rule.Renders n view

/-- A node names a table, if the rules say which calls do. -/
def Queries (n : Node) (table : String) : Prop :=
  ∃ rule, r.tables = some rule ∧ rule.Queries n table

theorem mem_views_iff {n : Node} {view : String} :
    (view ∈ r.views.filterMap fun rule => rule.view? n) ↔ r.Renders n view := by
  simp only [List.mem_filterMap, CallRule.view?_eq_some_iff, Renders]

theorem firstShown_bodyViews (body : List Node) :
    FirstShown r.Renders (Node.preorderList body) (r.bodyViews body) := by
  refine (firstShown_distinct_flatMap ?_ _).congr fun n view => r.mem_views_iff
  intro n view hview view' hview'
  obtain ⟨rule, -, hrenders⟩ := r.mem_views_iff.1 hview
  obtain ⟨rule', -, hrenders'⟩ := r.mem_views_iff.1 hview'
  exact hrenders.unique hrenders'

theorem firstShown_bodyTables (body : List Node) :
    FirstShown r.Queries (Node.preorderList body) (r.bodyTables body) := by
  unfold bodyTables
  split
  · next rule htables =>
      refine (firstShown_distinct_filterMap _ _).congr fun n table => ?_
      rw [TableRule.table?_eq_some_iff, Queries, htables]
      simp
  · next htables =>
      have hnone (n : Node) (table : String) : ¬ r.Queries n table := by
        rintro ⟨rule, hrule, -⟩
        rw [htables] at hrule
        cases hrule
      exact ⟨List.nodup_nil, by simp [hnone], List.Pairwise.nil⟩

/-! ## Facts -/

/-- A fact about a method tells its name, its visibility, its parameters and its summary, the views
that its body renders and the tables that its body names. -/
structure Describes (n : Node) (fact : MethodFact) (body : List Node) : Prop where
  node : n = .method fact.name fact.visibility fact.params body fact.summary
  views : FirstShown r.Renders (Node.preorderList body) fact.views
  tables : FirstShown r.Queries (Node.preorderList body) fact.tables

/-- The facts about the methods among some nodes, and the tables of these methods. -/
structure Exact (nodes : List Node) (facts : ClassFacts) : Prop where
  methods : List.Forall₂ (fun n fact => ∃ body, r.Describes n fact body) (nodes.filter isListed)
    facts.methods
  tables : FirstShown (· = ·) (facts.methods.flatMap MethodFact.tables) facts.tables

theorem describes_of_fact? {s : State} {n : Node} {fact : MethodFact}
    (h : r.fact? s n = some fact) : ∃ body, r.Describes n fact body := by
  unfold fact? at h
  split at h
  · next body _ =>
      obtain ⟨-, hfact⟩ := Option.ite_none_left_eq_some.1 h
      obtain rfl := Option.some.inj hfact
      exact ⟨body, rfl, r.firstShown_bodyViews body, r.firstShown_bodyTables body⟩
  · cases h

theorem describes_factsFrom (s : State) (nodes : List Node) :
    List.Forall₂ (fun n fact => ∃ body, r.Describes n fact body) (nodes.filter isListed)
      (r.factsFrom s nodes) := by
  induction nodes generalizing s with
  | nil => exact .nil
  | cons n nodes ih =>
      have hlisted := isSome_fact? r s n
      rw [factsFrom, List.filter_cons, ← hlisted]
      cases hfact : r.fact? s n with
      | none => exact ih _
      | some fact => exact .cons (r.describes_of_fact? hfact) (ih _)

/-- There is one fact for each method that is no constructor, in document order, with its views and
its tables in the order in which they first occur, and the tables of the class are those of its
methods, later repetitions left out. -/
theorem exact_collect (trees : List Node) :
    r.Exact (Node.preorderList trees) (r.collector.collect trees) where
  methods := by
    rw [methods_collect]
    exact r.describes_factsFrom _ _
  tables := by
    rw [tables_collect]
    exact firstShown_distinct _

end ClassRules

end Resettle
