import Resettle.Php.Node

/-!
# Shapes of nodes

The shapes that nodes are matched against, written as nodes, and what the readers of shapes accept.
-/

namespace Resettle.Php.Node

abbrev text (s : String) : Node :=
  literal (.string s)

abbrev own (name : String) : Node :=
  fetch (var "this") name

abbrev element (base : Node) (key : String) : Node :=
  subscript base (some (text key))

theorem literal?_eq_some_iff {n : Node} {v : Scalar} : n.literal? = some v ↔ n = literal v := by
  cases n with
  | literal v => simp [literal?]
  | _ => simp [literal?]

theorem string?_eq_some_iff {n : Node} {s : String} : n.string? = some s ↔ n = text s := by
  constructor
  · intro h
    obtain ⟨value, hliteral, hstring⟩ := Option.bind_eq_some_iff.1 h
    cases n with
    | literal v =>
        obtain rfl := Option.some.inj hliteral
        cases v with
        | string s' => rw [Option.some.inj hstring]
        | _ => cases hstring
    | _ => cases hliteral
  · rintro rfl
    rfl

theorem isVariable_iff {n : Node} {name : String} : n.isVariable name = true ↔ n = var name := by
  cases n with
  | var v => simp [isVariable]
  | _ => simp [isVariable]

theorem isThis_iff {n : Node} : n.isThis = true ↔ n = var "this" :=
  isVariable_iff

theorem isOwnProperty_iff {n : Node} {property : String} :
    n.isOwnProperty property = true ↔ n = own property := by
  cases n with
  | fetch object name => simp [isOwnProperty, isThis_iff]
  | _ => simp [isOwnProperty]

theorem keyIn?_eq_some_iff {n : Node} {name key : String} :
    n.keyIn? name = some key ↔ n = (var name).element key := by
  constructor
  · intro h
    unfold keyIn? at h
    split at h
    · obtain ⟨hbase, hkey⟩ := Option.ite_none_right_eq_some.1 h
      rw [isVariable_iff.1 hbase, string?_eq_some_iff.1 hkey]
    · cases h
  · rintro rfl
    exact (if_pos (isVariable_iff.2 rfl)).trans (string?_eq_some_iff.2 rfl)

end Resettle.Php.Node
