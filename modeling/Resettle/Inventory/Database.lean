import Resettle.Inventory.Collector

/-!
# Database settings

The settings of the default connection are one element of an array variable, given as a whole or
key by key, or they are a property of a class.  Only literals under string keys count, and the
last one of a key.
-/

namespace Resettle

open Php (Node)

/-- Where the settings of the default connection stand. -/
inductive DatabaseShape where
  /-- In a group of a variable. -/
  | group (variableName groupName : String)
  /-- In a property of a class. -/
  | property (name : String)
deriving DecidableEq, Repr

namespace DatabaseShape

def settings : DatabaseShape → Node → List (String × Scalar)
  | group variableName groupName, .assign target value =>
      if target.keyIn? variableName = some groupName then value.literalItems
      else
        match target with
        | .subscript base (some key) =>
            match base.keyIn? variableName, key.string?, value.literal? with
            | some outer, some inner, some v => if outer = groupName then [(inner, v)] else []
            | _, _, _ => []
        | _ => []
  | property name, .property _ defaults =>
      (defaults.filter fun e => e.1 == name).flatMap fun e => (e.2.map Node.literalItems).getD []
  | _, _ => []

def collector (shape : DatabaseShape) : Collector Values Values where
  start := Dictionary.empty
  step values n := values.insertMany (shape.settings n)
  result := id

end DatabaseShape

end Resettle
