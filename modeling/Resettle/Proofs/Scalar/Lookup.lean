import Resettle.Proofs.Dictionary
import Resettle.Scalar

/-!
# Settings under several names

A setting that is looked up under several names has the value of the first one that is there and is
not null.  What is found depends on the values given under these names only, not on the place of an
entry, and a setting with two names is found under either of them.
-/

namespace Resettle.Values

variable {values values' : Values} {name name' : String} {names : List String}

/-- The value of a name, a null not counting as one. -/
def given? (values : Values) (name : String) : Option Scalar :=
  (values.get? name).filter fun v => !v.isNull

theorem lookup_cons (values : Values) (name : String) (names : List String) :
    values.lookup (name :: names) = (values.given? name).or (values.lookup names) := by
  unfold lookup given?
  cases hv : values.get? name with
  | none => simp [hv]
  | some v => cases hnull : v.isNull <;> simp [hv, hnull, Option.filter_some]

theorem lookup_singleton (values : Values) (name : String) :
    values.lookup [name] = (values.get? name).filter fun v => !v.isNull :=
  (values.lookup_cons name []).trans Option.or_none

theorem lookup_congr (h : ∀ name ∈ names, values'.given? name = values.given? name) :
    values'.lookup names = values.lookup names := by
  induction names with
  | nil => rfl
  | cons name names ih =>
      rw [List.forall_mem_cons] at h
      rw [lookup_cons, lookup_cons, h.1, ih h.2]

/-- A value that moves to another name is found there, whichever of the two is tried first. -/
theorem lookup_swap (hold : values.given? name' = none) (hnew : values'.given? name = none)
    (h : values'.given? name' = values.given? name) :
    values'.lookup [name, name'] = values.lookup [name, name'] ∧
      values'.lookup [name', name] = values.lookup [name', name] := by
  have hnil : values'.lookup [] = values.lookup [] := rfl
  constructor
  · rw [lookup_cons, lookup_cons, lookup_cons, lookup_cons, hold, hnew, h, hnil]
    rfl
  · rw [lookup_cons, lookup_cons, lookup_cons, lookup_cons, hold, hnew, h, hnil]
    rfl

theorem given?_of_notMem (h : name ∉ values.keys) : values.given? name = none := by
  rw [Dictionary.mem_keys_iff, Option.not_isSome_iff_eq_none] at h
  rw [given?, h]
  rfl

theorem given?_insert_null (values : Values) (name : String) :
    Values.given? (values.insert name .null) name = none := by
  rw [given?, Dictionary.get?_insert_self]
  rfl

theorem given?_insert_of_ne (values : Values) (hne : name' ≠ name) (v : Scalar) :
    Values.given? (values.insert name v) name' = values.given? name' := by
  rw [given?, given?, Dictionary.get?_insert_of_ne _ hne]

theorem given?_congr (h : ∀ v, (name, v) ∈ values'.entries ↔ (name, v) ∈ values.entries) :
    values'.given? name = values.given? name := by
  have hsame : values'.get? name = values.get? name := by
    ext v
    rw [Dictionary.get?_eq_some_iff, Dictionary.get?_eq_some_iff]
    exact h v
  rw [given?, given?, hsame]

/-- The same is found for each of some settings, which are given by their names. -/
def AgreeOn (groups : List (List String)) (values values' : Values) : Prop :=
  ∀ names ∈ groups, values'.lookup names = values.lookup names

theorem AgreeOn.refl (groups : List (List String)) (values : Values) :
    AgreeOn groups values values :=
  fun _ _ => rfl

theorem AgreeOn.trans {groups : List (List String)} {values'' : Values}
    (h : AgreeOn groups values values') (h' : AgreeOn groups values' values'') :
    AgreeOn groups values values'' :=
  fun names hnames => (h' names hnames).trans (h names hnames)

end Resettle.Values
