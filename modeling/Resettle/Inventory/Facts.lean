import Resettle.Dictionary
import Resettle.Php.Node
import Resettle.Text.LowerCase

/-!
# Facts about classes

What is noted about the classes of a source project: their methods, what each method depends on,
renders and queries, and the routes that lead to it.
-/

namespace Resettle

inductive DependencyKind where
  | model
  | library
  | helper
  | unknown
deriving DecidableEq, Repr

namespace DependencyKind

def name : DependencyKind → String
  | model => "model"
  | library => "library"
  | helper => "helper"
  | unknown => "unknown"

def ofLoader? : String → Option DependencyKind
  | "model" => some model
  | "library" => some library
  | "helper" => some helper
  | _ => none

end DependencyKind

/-- A use of something that was loaded: the name under which it is used, and the name under which
it was loaded if that is known. -/
structure Usage where
  kind : DependencyKind
  handle : String
  name : Option String
deriving DecidableEq, Repr

namespace Usage

def key (u : Usage) : String :=
  u.name.getD "" ++ "|" ++ u.handle

end Usage

structure MethodFact where
  name : String
  visibility : Php.Visibility
  params : List String
  dependencies : List Usage
  views : List String
  tables : List String
  summary : String
  className : Option String
  parent : Option String
deriving DecidableEq, Repr

namespace MethodFact

def usage? (m : MethodFact) (handle : String) : Option Usage :=
  m.dependencies.find? fun u => u.handle == handle

def renders (m : MethodFact) (view : String) : Bool :=
  m.views.any (· == view)

end MethodFact

structure ClassFacts where
  name : Option String
  parent : Option String
  methods : List MethodFact
  tables : List String
deriving DecidableEq, Repr

namespace ClassFacts

def method? (c : ClassFacts) (name : String) : Option MethodFact :=
  c.methods.find? fun m => m.name == name

end ClassFacts

inductive HttpVerb where
  | get
  | post
  | put
  | delete
deriving DecidableEq, Repr

namespace HttpVerb

def name : HttpVerb → String
  | get => "GET"
  | post => "POST"
  | put => "PUT"
  | delete => "DELETE"

/-- The beginnings of method names that tell the verb, in the order in which they are tried. -/
def beginnings : List (String × HttpVerb) :=
  [("get", get), ("post", post), ("store", post), ("create", post), ("put", put),
    ("update", put), ("delete", delete)]

/-- The verb that a method's name suggests, `GET` unless it suggests another. -/
def ofMethod (method : String) : HttpVerb :=
  match beginnings.find? fun b => b.1.toList.isPrefixOf method.toList with
  | some b => b.2
  | none => get

end HttpVerb

structure Route where
  uri : String
  controller : String
  method : String
  verb : HttpVerb
deriving DecidableEq, Repr

namespace Route

def ofNames (controller method : String) : Route where
  uri := Text.lowerCase controller ++ "/" ++ Text.lowerCase method
  controller := controller
  method := method
  verb := HttpVerb.ofMethod method

end Route

end Resettle
