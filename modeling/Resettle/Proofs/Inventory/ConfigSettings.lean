import Mathlib.Data.List.Forall2
import Resettle.Inventory.Config
import Resettle.Proofs.LastGiven
import Resettle.Proofs.Php.Shapes

/-!
# Settings of applications

Which nodes give settings.  An assignment gives one if its target is an element of the variable
under a string literal and its value is a literal; a property statement gives the literals among
its default values; nothing else gives any.  What is gathered from trees of any shape are the
settings that are given last, in the order in which their keys are first given.
-/

namespace Resettle

open Php (Node)

namespace ConfigShape

/-- The literals among the default values of a property statement, under the properties' names. -/
inductive DefaultsGive : List (String × Option Node) → List (String × Scalar) → Prop
  | nil : DefaultsGive [] []
  | literal {name : String} {v : Scalar} {elements : List (String × Option Node)}
      {given : List (String × Scalar)} (rest : DefaultsGive elements given) :
      DefaultsGive ((name, some (.literal v)) :: elements) ((name, v) :: given)
  | other {name : String} {value : Option Node} {elements : List (String × Option Node)}
      {given : List (String × Scalar)} (h : ∀ v, value ≠ some (.literal v))
      (rest : DefaultsGive elements given) : DefaultsGive ((name, value) :: elements) given

/-- What a node gives, in order. -/
inductive Gives : ConfigShape → Node → List (String × Scalar) → Prop
  | assigned {variableName key : String} {v : Scalar} :
      Gives (.elements variableName) (.assign ((Node.var variableName).element key) (.literal v))
        [(key, v)]
  | unassigned {variableName : String} {n : Node}
      (h : ∀ key v, n ≠ .assign ((Node.var variableName).element key) (.literal v)) :
      Gives (.elements variableName) n []
  | declared {visibility : Php.Visibility} {elements : List (String × Option Node)}
      {given : List (String × Scalar)} (h : DefaultsGive elements given) :
      Gives .properties (.property visibility elements) given
  | undeclared {n : Node} (h : ∀ visibility elements, n ≠ .property visibility elements) :
      Gives .properties n []

theorem defaultsGive_iff {elements : List (String × Option Node)}
    {given : List (String × Scalar)} :
    DefaultsGive elements given ↔
      given = elements.filterMap fun e => (e.2.bind Node.literal?).map fun v => (e.1, v) := by
  constructor
  · intro h
    induction h with
    | nil => rfl
    | literal rest ih => rw [ih]; rfl
    | @other name value _ _ h rest ih =>
        have hnone : value.bind Node.literal? = none := by
          rw [Option.eq_none_iff_forall_ne_some]
          intro v hv
          obtain ⟨n, rfl, hn⟩ := Option.bind_eq_some_iff.1 hv
          exact h v (congrArg some (Node.literal?_eq_some_iff.1 hn))
        rw [ih, List.filterMap_cons, hnone, Option.map_none]
  · rintro rfl
    induction elements with
    | nil => exact .nil
    | cons e elements ih =>
        obtain ⟨name, value⟩ := e
        rw [List.filterMap_cons]
        cases hv : value.bind Node.literal? with
        | none =>
            refine .other ?_ ih
            rintro v rfl
            cases hv
        | some v =>
            obtain ⟨n, rfl, hn⟩ := Option.bind_eq_some_iff.1 hv
            rw [Node.literal?_eq_some_iff.1 hn]
            exact .literal ih

theorem settings_elements_eq_nil {variableName : String} {n : Node}
    (h : ∀ key v, n ≠ .assign ((Node.var variableName).element key) (.literal v)) :
    (elements variableName).settings n = [] := by
  cases n with
  | assign target value =>
      rw [settings]
      split
      · next key v hkey hv =>
          rw [Node.keyIn?_eq_some_iff.1 hkey, Node.literal?_eq_some_iff.1 hv] at h
          exact absurd rfl (h key v)
      · rfl
  | _ => rfl

theorem settings_assign (variableName key : String) (v : Scalar) :
    (elements variableName).settings (.assign ((Node.var variableName).element key) (.literal v)) =
      [(key, v)] := by
  rw [settings, Node.keyIn?_eq_some_iff.2 rfl, Node.literal?_eq_some_iff.2 rfl]

theorem settings_properties_eq_nil {n : Node}
    (h : ∀ visibility elements, n ≠ .property visibility elements) :
    properties.settings n = [] := by
  cases n with
  | property visibility elements => exact absurd rfl (h visibility elements)
  | _ => rfl

theorem gives_iff {shape : ConfigShape} {n : Node} {given : List (String × Scalar)} :
    shape.Gives n given ↔ given = shape.settings n := by
  constructor
  · intro h
    cases h with
    | assigned => exact (settings_assign _ _ _).symm
    | unassigned h => exact (settings_elements_eq_nil h).symm
    | declared h => exact defaultsGive_iff.1 h
    | undeclared h => exact (settings_properties_eq_nil h).symm
  · rintro rfl
    cases shape with
    | elements variableName =>
        by_cases h : ∃ key v, n = .assign ((Node.var variableName).element key) (.literal v)
        · obtain ⟨key, v, rfl⟩ := h
          rw [settings_assign]
          exact .assigned
        · have hnone : ∀ key v, n ≠ .assign ((Node.var variableName).element key) (.literal v) :=
            fun key v hn => h ⟨key, v, hn⟩
          rw [settings_elements_eq_nil hnone]
          exact .unassigned hnone
    | properties =>
        by_cases h : ∃ visibility elements, n = .property visibility elements
        · obtain ⟨visibility, elements, rfl⟩ := h
          exact .declared (defaultsGive_iff.2 rfl)
        · have hnone : ∀ visibility elements, n ≠ .property visibility elements :=
            fun visibility elements hn => h ⟨visibility, elements, hn⟩
          rw [settings_properties_eq_nil hnone]
          exact .undeclared hnone

theorem collect_eq (shape : ConfigShape) (trees : List Node) :
    shape.collector.collect trees =
      .ofList ((Node.preorderList trees).flatMap shape.settings) :=
  Dictionary.foldl_insertMany _ _ _

/-- Each node of a tree gives what it gives and nothing else, and from trees of any shape come the
keys that are given a literal, in the order in which they are first given one, each with the literal
that it is given last. -/
theorem lastGiven_collect (shape : ConfigShape) (trees : List Node) :
    ∃ given, (∀ other, List.Forall₂ shape.Gives (Node.preorderList trees) other ↔ other = given) ∧
      LastGiven given.flatten (shape.collector.collect trees) := by
  refine ⟨(Node.preorderList trees).map shape.settings, fun other => ?_, ?_⟩
  · have hgives : shape.Gives = fun n given => shape.settings n = given := by
      funext n given
      exact propext (gives_iff.trans eq_comm)
    rw [hgives, ← List.forall₂_map_left_iff, List.forall₂_eq_eq_eq, eq_comm]
  · rw [collect_eq, List.flatMap_def]
    exact Dictionary.lastGiven_ofList _

end ConfigShape

end Resettle
