import Resettle.Inventory.Report
import Resettle.Json.Reader
import Resettle.Json.Record
import Resettle.Json.Writer

/-!
# Reports as JSON

How each part of a report is written as a JSON value and read back.  Members that are empty are
left out where a report can do without them.  The sections of a migration have no tag: a section
that has a flag and a reason is a failure, and any other is read as a completed one.
-/

namespace Resettle

def Json.ofTexts (xs : List String) : Json :=
  .array (xs.map .text)

def Json.asTexts? : Json → Option (List String) :=
  Json.asList? Json.asText?

def Json.ofText : Option String → Json
  | none => .null
  | some s => .text s

def Json.ofDictionary {α : Type} (toJson : α → Json) (d : Dictionary String α) : Json :=
  .record (d.entries.map fun e => (e.1, toJson e.2))

/-- The dictionary of a JSON object; a later member overwrites an earlier one of its name. -/
def Json.asDictionary? {α : Type} (read? : Json → Option α) (j : Json) :
    Option (Dictionary String α) :=
  (Json.asMembers? read? j).map Dictionary.ofList

def Json.asPath? (j : Json) : Option Path :=
  j.asText?.map Path.mk

namespace Php.Visibility

def all : List Visibility :=
  [publicAccess, protectedAccess, privateAccess]

def ofJson? : Json → Option Visibility :=
  Json.asName? fun name => all.find? fun v => v.keyword == name

end Php.Visibility

namespace DependencyKind

def all : List DependencyKind :=
  [model, library, helper, unknown]

def ofJson? : Json → Option DependencyKind :=
  Json.asName? fun name => all.find? fun k => k.name == name

end DependencyKind

namespace HttpVerb

def all : List HttpVerb :=
  [get, post, put, delete]

def ofJson? : Json → Option HttpVerb :=
  Json.asName? fun name => all.find? fun v => v.name == name

end HttpVerb

namespace Generation

def ofJson? : Json → Option Generation :=
  Json.asName? fun name => (supported ++ [unknown]).find? fun g => g.name == name

end Generation

namespace Usage

def toJson (u : Usage) : Json :=
  .record [("type", .text u.kind.name), ("alias", .text u.handle), ("name", .ofText u.name)]

def ofJson? (j : Json) : Option Usage := do
  let r ← Json.Record.ofJson? ["type", "alias", "name"] j
  return { kind := ← r.required? "type" DependencyKind.ofJson?
           handle := ← r.required? "alias" Json.asText?
           name := ← r.optional? "name" Json.asText? }

end Usage

/-- A member with a list of texts, left out if the list is empty. -/
def Json.textsMember (name : String) (xs : List String) : List (String × Json) :=
  if xs = [] then [] else [(name, .ofTexts xs)]

namespace MethodFact

def toJson (m : MethodFact) : Json :=
  .record ([("name", .text m.name), ("visibility", .text m.visibility.keyword),
    ("params", .ofTexts m.params), ("dependencies", .array (m.dependencies.map Usage.toJson)),
    ("views", .ofTexts m.views)] ++ Json.textsMember "tables" m.tables ++
    [("summary", .text m.summary), ("class", .ofText m.className), ("extends", .ofText m.parent)])

def ofJson? (j : Json) : Option MethodFact := do
  let r ← Json.Record.ofJson? ["name", "visibility", "params", "dependencies", "views", "tables",
    "summary", "class", "extends"] j
  return { name := ← r.required? "name" Json.asText?
           visibility := ← r.required? "visibility" Php.Visibility.ofJson?
           params := ← r.required? "params" Json.asTexts?
           dependencies := ← r.required? "dependencies" (Json.asList? Usage.ofJson?)
           views := ← r.required? "views" Json.asTexts?
           tables := ← r.withDefault? "tables" [] Json.asTexts?
           summary := ← r.required? "summary" Json.asText?
           className := ← r.optional? "class" Json.asText?
           parent := ← r.optional? "extends" Json.asText? }

end MethodFact

namespace ClassEntry

def toJson (c : ClassEntry) : Json :=
  .record ([("file", .text c.file.text), ("extends", .ofText c.parent),
    ("methods", .array (c.methods.map MethodFact.toJson))] ++
    Json.textsMember "tables" c.tables)

def ofJson? (j : Json) : Option ClassEntry := do
  let r ← Json.Record.ofJson? ["file", "extends", "methods", "tables"] j
  return { file := ← r.required? "file" Json.asPath?
           parent := ← r.optional? "extends" Json.asText?
           methods := ← r.required? "methods" (Json.asList? MethodFact.ofJson?)
           tables := ← r.withDefault? "tables" [] Json.asTexts? }

end ClassEntry

namespace Route

def toJson (r : Route) : Json :=
  .record [("uri", .text r.uri), ("controller", .text r.controller), ("method", .text r.method),
    ("http", .text r.verb.name)]

def ofJson? (j : Json) : Option Route := do
  let r ← Json.Record.ofJson? ["uri", "controller", "method", "http"] j
  return { uri := ← r.required? "uri" Json.asText?
           controller := ← r.required? "controller" Json.asText?
           method := ← r.required? "method" Json.asText?
           verb := ← r.required? "http" HttpVerb.ofJson? }

end Route

namespace Inventory

def fileToJson (path : Path) : Json :=
  .record [("file", .text path.text)]

def fileOfJson? (j : Json) : Option Path := do
  (← Json.Record.ofJson? ["file"] j).required? "file" Json.asPath?

def errorsToJson (errors : PathMap String) : Json :=
  .record (errors.entries.map fun e => (e.1.text, .text e.2))

def errorsOfJson? (j : Json) : Option (PathMap String) :=
  (Json.asMembers? Json.asText? j).map fun es => .ofList (es.map fun e => (⟨e.1⟩, e.2))

def toJson (r : Inventory) : Json :=
  .record ([("controllers", .ofDictionary ClassEntry.toJson r.controllers),
    ("models", .ofDictionary ClassEntry.toJson r.models),
    ("routes", .array (r.routes.map Route.toJson)),
    ("libraries", .ofDictionary fileToJson r.libraries),
    ("helpers", .ofDictionary fileToJson r.helpers)] ++
    (if r.errors.isEmpty then [] else [("_errors", errorsToJson r.errors)]))

def ofJson? (j : Json) : Option Inventory := do
  let r ← Json.Record.ofJson? ["controllers", "models", "routes", "libraries", "helpers",
    "_errors"] j
  return { controllers := ← r.required? "controllers" (Json.asDictionary? ClassEntry.ofJson?)
           models := ← r.required? "models" (Json.asDictionary? ClassEntry.ofJson?)
           routes := ← r.required? "routes" (Json.asList? Route.ofJson?)
           libraries := ← r.required? "libraries" (Json.asDictionary? fileOfJson?)
           helpers := ← r.required? "helpers" (Json.asDictionary? fileOfJson?)
           errors := ← r.withDefault? "_errors" .empty errorsOfJson? }

end Inventory

namespace Section

variable {α : Type}

def toJson (valueToJson : α → Json) : Section α → Json
  | failed flag reason => .record [("success", .bool flag), ("error", .text reason)]
  | completed value => .record [("success", valueToJson value)]

/-- The deepest nesting of containers that a report may have inside its sections. -/
def maxDepth : Nat :=
  127

def failedOfJson? (j : Json) : Option (Section α) := do
  let r ← Json.Record.ofJson? ["success", "error"] j
  return failed (← r.required? "success" Json.asBool?) (← r.required? "error" Json.asText?)

def completedOfJson? (read? : Json → Option α) (j : Json) : Option (Section α) := do
  return completed (← (← Json.Record.ofJson? ["success"] j).required? "success" read?)

/-- The section of a JSON value inside of `outer` containers.  To tell which of the two it is all
of the value is looked at, so that it must be sound and not too deep. -/
def ofJson? (outer : Nat) (read? : Json → Option α) (j : Json) : Option (Section α) :=
  if j.isSound && j.depth + outer ≤ maxDepth then
    (failedOfJson? j).or (completedOfJson? read? j)
  else none

end Section

namespace Migration

def toJson (m : Migration) : Json :=
  .record (((m.analysis.map fun s => ("analysis", s.toJson Inventory.toJson)).toList) ++
    (m.conversion.map fun s => ("conversion", s.toJson Json.bool)).toList)

/-- The migration of a JSON value inside of `outer` containers. -/
def ofJson? (outer : Nat) (j : Json) : Option Migration := do
  let r ← Json.Record.ofJson? ["analysis", "conversion"] j
  return { analysis := ← r.withDefault? "analysis" none
             (Json.Record.nullable? (Section.ofJson? (outer + 1) Inventory.ofJson?))
           conversion := ← r.withDefault? "conversion" none
             (Json.Record.nullable? (Section.ofJson? (outer + 1) Json.asBool?)) }

end Migration

namespace Outcome

def toJson (o : Outcome) : Json :=
  .record ([("success", .bool o.success), ("message", .text o.message),
    ("generation", .text o.generation.name)] ++
    (o.report.map fun m => ("report", m.toJson)).toList)

def ofJson? (j : Json) : Option Outcome := do
  let r ← Json.Record.ofJson? ["success", "message", "generation", "report"] j
  return { success := ← r.required? "success" Json.asBool?
           message := ← r.required? "message" Json.asText?
           generation := ← r.required? "generation" Generation.ofJson?
           report := ← r.withDefault? "report" none (Json.Record.nullable? (Migration.ofJson? 1)) }

end Outcome

end Resettle
