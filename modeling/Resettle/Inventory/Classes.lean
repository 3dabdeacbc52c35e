import Resettle.Distinct
import Resettle.Inventory.Collector
import Resettle.Inventory.Facts

/-!
# Classes and their methods

The collector of what is noted about classes.  Loading calls bind a handle to what is loaded, in
constructors as well as in other methods, and later methods see the bindings of earlier ones.  In
a method, the helpers it loads are its first dependencies; reads of the object's own properties
follow, each resolved by the bindings.
-/

namespace Resettle

open Php (Node)

/-- The shapes of calls that load something or render a view. -/
inductive CallRule where
  /-- A method of an own property of the object. -/
  | loader (property : String)
  /-- A function. -/
  | function
deriving DecidableEq, Repr

/-- The calls whose first argument names a table. -/
structure TableRule where
  property : String
  methods : List String
deriving DecidableEq, Repr

def TableRule.queryBuilder : TableRule :=
  ⟨"db", ["get", "insert", "get_where"]⟩

/-- What counts as loading, rendering and querying in a class. -/
structure ClassRules where
  /-- Calls that load something. -/
  loads : List CallRule
  /-- Calls that render a view. -/
  views : List CallRule
  /-- Calls that name a table. -/
  tables : Option TableRule
  /-- Own properties whose reads are no dependencies. -/
  ignored : List String
deriving DecidableEq, Repr

namespace ClassRules

/-- Everything is loaded and rendered through the object's loader. -/
def loader : ClassRules where
  loads := [.loader "load"]
  views := [.loader "load"]
  tables := none
  ignored := ["load", "input"]

/-- There are functions for loading and rendering beside the loader. -/
def loaderAndFunctions : ClassRules where
  loads := [.loader "load", .function]
  views := [.loader "load", .function]
  tables := none
  ignored := ["load", "input"]

/-- Rules with calls that name a table, unless there are some already. -/
def withTables (r : ClassRules) : ClassRules :=
  { r with tables := some (r.tables.getD TableRule.queryBuilder) }

end ClassRules

/-- What a handle stands for. -/
structure Binding where
  kind : DependencyKind
  name : String
deriving DecidableEq, Repr

inductive Load where
  /-- A helper, which is used at once. -/
  | helper (name : String)
  /-- A model or a library under a handle. -/
  | bind (handle : String) (binding : Binding)
deriving DecidableEq, Repr

/-- The first argument of a call as a string literal. -/
def firstString? (args : List Node) : Option String :=
  args.head?.bind Node.string?

/-- The helpers that the first argument of a call names: one literal, or those of an array. -/
def helperNames (args : List Node) : List String :=
  let named : List String :=
    match args.head? with
    | some (.array items) => items.filterMap fun item => item.2.string?
    | some n => n.string?.toList
    | none => []
  named.filter (· ≠ "")

def shortName (name : String) : String :=
  String.ofList (name.toList.reverse.takeWhile (· ≠ '\\')).reverse

def CallRule.loads : CallRule → Node → List Load
  | loader property, .methodCall object name args =>
      if object.isOwnProperty property then
        match DependencyKind.ofLoader? name with
        | some .helper => (helperNames args).map .helper
        | some kind =>
            match firstString? args with
            | some target => [.bind ((args[1]?.bind Node.string?).getD target) ⟨kind, target⟩]
            | none => []
        | none => []
      else []
  | function, .call "helper" args => (helperNames args).map .helper
  | function, .call "model" args =>
      match firstString? args with
      | some target => [.bind (shortName target) ⟨.model, target⟩]
      | none => []
  | function, .assign (.fetch object handle) (.call "model" args) =>
      match object.isThis, firstString? args with
      | true, some target => [.bind handle ⟨.model, target⟩]
      | _, _ => []
  | _, _ => []

def CallRule.view? : CallRule → Node → Option String
  | loader property, .methodCall object "view" args =>
      if object.isOwnProperty property then firstString? args else none
  | function, .call "view" args => firstString? args
  | _, _ => none

def TableRule.table? (r : TableRule) : Node → Option String
  | .methodCall object name args =>
      if r.methods.contains name && object.isOwnProperty r.property then firstString? args
      else none
  | _ => none

def ownRead? : Node → Option String
  | .fetch object name => if object.isThis then some name else none
  | _ => none

namespace ClassRules

abbrev Bindings :=
  Dictionary String Binding

variable (r : ClassRules)

/-- The loads of a method body in document order. -/
def bodyLoads (body : List Node) : List Load :=
  (Node.preorderList body).flatMap fun n => r.loads.flatMap fun rule => rule.loads n

def helpersOf (loads : List Load) : List String :=
  loads.filterMap fun
    | .helper name => some name
    | .bind _ _ => none

/-- The other bindings among some loads. -/
def boundBy (loads : List Load) : List (String × Binding) :=
  loads.filterMap fun
    | .bind handle b => some (handle, b)
    | .helper _ => none

/-- The bindings behind a method body: helpers come last. -/
def bind (bindings : Bindings) (body : List Node) : Bindings :=
  let loads := r.bodyLoads body
  (bindings.insertMany (boundBy loads)).insertMany
    ((helpersOf loads).map fun name => (name, ⟨.helper, name⟩))

def helperUsage (name : String) : Usage :=
  ⟨.helper, name, some name⟩

/-- The use that a read of an own property is, as the bindings tell. -/
def readUsage (bindings : Bindings) (handle : String) : Usage :=
  match bindings.get? handle with
  | some b => ⟨b.kind, handle, some b.name⟩
  | none => ⟨.unknown, handle, none⟩

/-- The own properties that a method body reads, ignored ones aside. -/
def bodyReads (body : List Node) : List String :=
  ((Node.preorderList body).filterMap ownRead?).filter fun name => !r.ignored.contains name

def usages (bindings : Bindings) (body : List Node) : List Usage :=
  let helpers := (helpersOf (r.bodyLoads body)).map helperUsage
  let reads := (r.bodyReads body).map (readUsage bindings)
  (Dictionary.ofList ((helpers ++ reads).map fun u => (u.key, u))).values

def bodyViews (body : List Node) : List String :=
  distinct ((Node.preorderList body).flatMap fun n => r.views.filterMap fun rule => rule.view? n)

def bodyTables (body : List Node) : List String :=
  match r.tables with
  | some rule => distinct ((Node.preorderList body).filterMap rule.table?)
  | none => []

def isConstructor (name : String) : Bool :=
  String.ofList (name.toList.map Char.toLower) == "__construct"

structure State where
  facts : ClassFacts
  bindings : Bindings

def step (s : State) : Node → State
  | .classDecl name parent _ => { s with facts := { s.facts with name := some name, parent } }
  | .method name visibility params body summary =>
      let bindings := r.bind s.bindings body
      if isConstructor name then { s with bindings }
      else
        let tables := r.bodyTables body
        let fact : MethodFact :=
          { name, visibility, params, summary, tables
            dependencies := r.usages bindings body
            views := r.bodyViews body
            className := s.facts.name
            parent := s.facts.parent }
        { bindings
          facts := { s.facts with
            methods := s.facts.methods ++ [fact]
            tables := tables.foldl addNew s.facts.tables } }
  | _ => s

def collector : Collector State ClassFacts where
  start := ⟨⟨none, none, [], []⟩, Dictionary.empty⟩
  step := r.step
  result := State.facts

end ClassRules

end Resettle
