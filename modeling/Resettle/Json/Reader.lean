import Resettle.Json.Token

/-!
# Reading JSON

A value is built from its tokens with a stack of the containers that are still open, so that the
reader goes through the tokens once.
-/

namespace Resettle.Json

/-- An open container: what it holds so far, last first. -/
inductive Frame where
  | array (held : List Json)
  | object (held : List (Option String × Json)) (name : Option String)

mutual

/-- The value of tokens inside of open containers, when a value is due. -/
def build? : List Frame → List Token → Option Json
  | stack, .null :: ts => resume? null stack ts
  | stack, .bool b :: ts => resume? (bool b) stack ts
  | stack, .number n :: ts => resume? (number n) stack ts
  | stack, .string s :: ts => resume? (string s) stack ts
  | stack, .openArray :: .closeArray :: ts => resume? (array []) stack ts
  | stack, .openArray :: ts => build? (.array [] :: stack) ts
  | stack, .openObject :: .closeObject :: ts => resume? (object []) stack ts
  | stack, .openObject :: .string name :: .colon :: ts => build? (.object [] name :: stack) ts
  | _, _ => none

/-- The value of tokens inside of open containers, when the innermost has just got `value`. -/
def resume? (value : Json) : List Frame → List Token → Option Json
  | [], [] => some value
  | .array held :: stack, .comma :: ts => build? (.array (value :: held) :: stack) ts
  | .array held :: stack, .closeArray :: ts =>
      resume? (array (value :: held).reverse) stack ts
  | .object held name :: stack, .comma :: .string next :: .colon :: ts =>
      build? (.object ((name, value) :: held) next :: stack) ts
  | .object held name :: stack, .closeObject :: ts =>
      resume? (object ((name, value) :: held).reverse) stack ts
  | _, _ => none

end

def ofText? (s : String) : Option Json :=
  (Token.ofText? s).bind (build? [])

example : (ofText? " [1, -0.5e2, \"a\\u00e9\"]").isSome = true := by decide +kernel

example : (ofText? "[1,]").isSome = false := by decide +kernel

example : (ofText? "01").isSome = false := by decide +kernel

end Resettle.Json
