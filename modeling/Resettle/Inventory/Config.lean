import Resettle.Inventory.Collector

/-!
# Application settings

The settings of an application are assigned key by key to an array variable, or they are the
default values of the properties of a class.  Only literals count, and the last one of a key.
-/

namespace Resettle

open Php (Node)

/-- Where the settings of an application stand. -/
inductive ConfigShape where
  /-- In the elements of a variable. -/
  | elements (variableName : String)
  /-- In the properties of a class. -/
  | properties
deriving DecidableEq, Repr

namespace ConfigShape

def settings : ConfigShape → Node → List (String × Scalar)
  | elements variableName, .assign target value =>
      match target.keyIn? variableName, value.literal? with
      | some key, some v => [(key, v)]
      | _, _ => []
  | properties, .property _ defaults =>
      defaults.filterMap fun e => (e.2.bind Node.literal?).map fun v => (e.1, v)
  | _, _ => []

def collector (shape : ConfigShape) : Collector Values Values where
  start := Dictionary.empty
  step values n := values.insertMany (shape.settings n)
  result := id

end ConfigShape

end Resettle
