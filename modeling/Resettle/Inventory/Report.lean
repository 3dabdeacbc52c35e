import Resettle.Generation
import Resettle.Inventory.Facts
import Resettle.PathMap

/-!
# Reports

What a source project holds, what a migration did section by section, and how it came out.
-/

namespace Resettle

/-- A controller or model class and the file that declares it. -/
structure ClassEntry where
  file : Path
  parent : Option String
  methods : List MethodFact
  tables : List String
deriving DecidableEq, Repr

structure Inventory where
  controllers : Dictionary String ClassEntry
  models : Dictionary String ClassEntry
  routes : List Route
  libraries : Dictionary String Path
  helpers : Dictionary String Path
  /-- What is wrong with the files that could not be read or parsed. -/
  errors : PathMap String
deriving DecidableEq, Repr

namespace Inventory

def empty : Inventory where
  controllers := .empty
  models := .empty
  routes := []
  libraries := .empty
  helpers := .empty
  errors := .empty

instance : Inhabited Inventory :=
  ⟨empty⟩

def hasErrors (r : Inventory) : Bool :=
  !r.errors.isEmpty

def route? (r : Inventory) (uri : String) : Option Route :=
  r.routes.find? fun route => route.uri == uri

end Inventory

/-- How a section of a migration came out.  A failure carries a flag of its own, which is false
unless a report that was read says otherwise. -/
inductive Section (α : Type) where
  | failed (flag : Bool) (reason : String)
  | completed (value : α)
deriving DecidableEq, Repr

namespace Section

variable {α : Type}

def failure (reason : String) : Section α :=
  failed false reason

def value? : Section α → Option α
  | completed value => some value
  | failed _ _ => none

def reason? : Section α → Option String
  | failed _ reason => some reason
  | completed _ => none

end Section

structure Migration where
  analysis : Option (Section Inventory)
  conversion : Option (Section Bool)
deriving DecidableEq, Repr

namespace Migration

def empty : Migration :=
  ⟨none, none⟩

instance : Inhabited Migration :=
  ⟨empty⟩

def isEmpty (m : Migration) : Bool :=
  m.analysis.isNone && m.conversion.isNone

def conversionSucceeded (m : Migration) : Bool :=
  m.conversion == some (.completed true)

end Migration

/-- How a migration came out; there is no report if it stopped before it began. -/
structure Outcome where
  success : Bool
  message : String
  generation : Generation
  report : Option Migration
deriving DecidableEq, Repr

end Resettle
