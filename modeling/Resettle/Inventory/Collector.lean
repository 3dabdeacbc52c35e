import Resettle.Php.Node

/-!
# Collectors

A collector looks at the nodes of syntax trees one by one in document order and answers with what
it has gathered.
-/

namespace Resettle

open Php (Node)

/-- A way to gather values of a type from the nodes of trees, remembering a state between them. -/
structure Collector (σ α : Type) where
  /-- The state in front of the first node. -/
  start : σ
  /-- The state behind one more node. -/
  step : σ → Node → σ
  /-- What has been gathered. -/
  result : σ → α

namespace Collector

variable {σ α : Type}

/-- The state behind all nodes of some trees. -/
def walk (c : Collector σ α) (s : σ) (trees : List Node) : σ :=
  (Node.preorderList trees).foldl c.step s

def collect (c : Collector σ α) (trees : List Node) : α :=
  c.result (c.walk c.start trees)

end Collector

end Resettle
