import Resettle.Json
import Resettle.Scalar

/-!
# Scalars as JSON values

A scalar is written as the JSON value of its kind and read back by it.  A numeral without point
and exponent is an integer if it is small enough and a float otherwise, and JSON has no numeral
for a float that is not finite.
-/

namespace Resettle.Scalar

def ofJson? : Json → Option Scalar
  | .null => some null
  | .bool b => some (bool b)
  | .string s => s.map string
  | .number n =>
      n.value?.map fun
        | .integer i => int i
        | .float x => float x
  | .array _ => none
  | .object _ => none

def toJson : Scalar → Json
  | null => .null
  | bool b => .bool b
  | string s => .text s
  | int n => .number (.ofInt n)
  | float x => if x.isFinite then .number (.ofFloat x) else .null

end Resettle.Scalar
