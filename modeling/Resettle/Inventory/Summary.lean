import Resettle.Inventory.Report
import Resettle.Text.Style

/-!
# Summaries for a terminal

Reports as lines of text, with styles where the terminal shows them.
-/

namespace Resettle

open Text (Style)

namespace Inventory

/-- Lines, each ended by a line feed. -/
def unlines (lines : List String) : String :=
  String.join (lines.map (· ++ "\n"))

def heading (shown : Bool) (title : String) (count : Nat) : String :=
  Style.apply shown [.bold] title ++ " " ++ Style.apply shown [.dimmed] s!"({count})"

/-- A text of at least `width` characters, blanks filling the rest. -/
def padded (width : Nat) (s : String) : String :=
  s ++ String.ofList (List.replicate (width - s.length) ' ')

def methodLine (shown : Bool) (m : MethodFact) : String :=
  "    " ++ Style.apply shown [.dimmed] m.visibility.keyword ++ " " ++ m.name ++ "(" ++
    ", ".intercalate m.params ++ ")"

def classLines (shown : Bool) (name : String) (c : ClassEntry) : List String :=
  let parent := (c.parent.map (" extends " ++ ·)).getD ""
  ("  " ++ Style.apply shown [.cyan] name ++ Style.apply shown [.dimmed] parent) ::
    (c.methods.map (methodLine shown) ++
      (if c.tables = [] then [] else ["    tables: " ++ ", ".intercalate c.tables]))

def classSection (shown : Bool) (title : String) (entries : Dictionary String ClassEntry) :
    List String :=
  heading shown title entries.size ::
    entries.entries.flatMap fun e => classLines shown e.1 e.2

def routeLine (shown : Bool) (r : Route) : String :=
  "  " ++ Style.apply shown [.green] (padded 6 r.verb.name) ++ " " ++ r.uri ++ " -> " ++
    r.controller ++ "::" ++ r.method

def fileSection (shown : Bool) (title : String) (entries : Dictionary String Path) :
    List String :=
  heading shown title entries.size ::
    entries.entries.map fun e =>
      "  " ++ Style.apply shown [.cyan] e.1 ++ " " ++ Style.apply shown [.dimmed] e.2.text

def errorSection (shown : Bool) (errors : PathMap String) : List String :=
  if errors.isEmpty then []
  else
    heading shown "Errors" errors.size ::
      errors.entries.map fun e => "  " ++ Style.apply shown [.red] e.1.text ++ " " ++ e.2

def summary (shown : Bool) (r : Inventory) : String :=
  unlines (classSection shown "Controllers" r.controllers ++
    classSection shown "Models" r.models ++
    heading shown "Routes" r.routes.length :: r.routes.map (routeLine shown) ++
    fileSection shown "Libraries" r.libraries ++
    fileSection shown "Helpers" r.helpers ++
    errorSection shown r.errors)

/-- The sizes of an inventory's sections on one line, and a line on the files that could not be
parsed, if there are any. -/
def sizeLines (shown : Bool) (r : Inventory) : List String :=
  (s!"Analysis: {r.controllers.size} controllers, {r.models.size} models, {r.routes.length} routes, "
      ++ s!"{r.libraries.size} libraries, {r.helpers.size} helpers") ::
    (if r.hasErrors then
      [Style.apply shown [.yellow] s!"{r.errors.size} file(s) could not be parsed"]
    else [])

end Inventory

namespace Section

def lines (shown : Bool) : Section Inventory → List String
  | failed _ reason => ["Analysis: " ++ Style.apply shown [.red] reason]
  | completed inventory => inventory.sizeLines shown

end Section

namespace Outcome

def verdict (shown : Bool) (o : Outcome) : String :=
  if o.success then Style.apply shown [.bold, .green] "SUCCESS"
  else Style.apply shown [.bold, .red] "FAILED"

def summary (shown : Bool) (o : Outcome) : String :=
  Inventory.unlines ((o.verdict shown ++ " " ++ o.message) ::
    s!"Generation: {o.generation.label}" ::
    ((o.report.bind Migration.analysis).map (Section.lines shown)).getD [])

end Outcome

end Resettle
