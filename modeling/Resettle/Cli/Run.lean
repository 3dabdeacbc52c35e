import Resettle.Cli.Arguments
import Resettle.Configuration.Search
import Resettle.Inventory.Json
import Resettle.Inventory.Summary
import Resettle.Resettlement

/-!
# Running commands

What a command does, what it prints, and how it ends.  Status 0 is success, 1 is failure and 2 is
an unusable command line.
-/

namespace Resettle.Cli

structure Result where
  status : Nat
  output : String
  error : Option String
deriving DecidableEq, Repr

namespace Result

def ok (output : String) : Result :=
  ⟨0, output, none⟩

def failed (output message : String) : Result :=
  ⟨1, output, some ("Error: " ++ message)⟩

def ofError (output : String) (e : Error) : Result :=
  failed output (e.message ++
    match e.cause? with
    | some cause => "\n\nCaused by:\n    " ++ cause.message
    | none => "")

def ofAction (text : Except Error String) : Result :=
  match text with
  | .ok output => ok output
  | .error e => ofError "" e

end Result

def versionText : String :=
  "igniter-migrate 0.3.1\n"

/-- Writes JSON to a file over several lines, whose directory is made if it is not there. -/
def writeJson (p : Path) (j : Json) : Action Unit := do
  match p.parent? with
  | some parent => Action.ensureDirectory parent
  | none => pure ()
  Action.writeText p j.pretty

def workingDirectory (d : Disk) : Path :=
  ⟨"/" ++ "/".intercalate d.here⟩

def configuration (d : Disk) : Configuration :=
  Configuration.nearest d (workingDirectory d)

def mode (c : Configuration) (sequential : Bool) : Mode :=
  if c.parallel && !sequential then .parallel else .sequential

/-! ## detect -/

/-- Prints the generation of a project; an unknown one is a failure. -/
def detect (p : Path) (d : Disk) : Result :=
  if !d.isDirectory p then .failed "" s!"Project directory not found: {p.text}"
  else
    let g := Generation.detect d p
    let line := s!"{g.label} ({g.name})\n"
    if g.isKnown then .ok line else .failed line s!"Unsupported CodeIgniter version: {p.text}"

/-! ## analyze -/

def report (format : Format) (output : Option Path) (r : Inventory) : Action String := do
  match format, output with
  | .json, none => return r.toJson.pretty ++ "\n"
  | .json, some p =>
      writeJson p r.toJson
      return ""
  | .terminal, none => return r.summary false
  | .terminal, some p =>
      Action.writeText p (r.summary false)
      return ""

def analyze (o : AnalyzeOptions) : StateM Disk Result := do
  let d ← get
  if !d.isDirectory o.path then
    return .failed "" s!"Project directory not found: {o.path.text}"
  else
    let g := o.generation.getD (Generation.detect d o.path)
    if !g.isKnown then
      return .failed "" s!"Unsupported CodeIgniter version in {o.path.text}"
    else
      let project := (Project.create o.path o.path "analysis").withGeneration g
      let work : Action String := do
        let r ← Action.reading (Inventory.ofProject (mode (configuration d) o.sequential) g project)
        report o.format o.output r
      return .ofAction (← work.finish)

/-! ## init -/

/-- Writes a new configuration file, over an old one only if that is asked for. -/
def init (force : Bool) : StateM Disk Result := do
  let p : Path := ⟨Configuration.fileName⟩
  if (← get).has p && !force then
    return .failed "" "Configuration file already exists. Use --force to overwrite."
  else
    let work : Action String := do
      Action.writeText p Configuration.template
      return s!"Created {Configuration.fileName} configuration file\n"
    return .ofAction (← work.finish)

/-! ## migrate -/

def overridden (o : MigrateOptions) (c : Configuration) : Configuration :=
  { target :=
      { version := o.version.getD c.target.version, sail := o.sail || c.target.sail }
    conversion := { c.conversion with strict := c.conversion.strict && !o.lenient }
    parallel := c.parallel && !o.sequential }

/-- Why the options of a migration cannot be used, if they cannot. -/
def refusal? (o : MigrateOptions) : Option String :=
  match o.version.filter fun v => !Laravel.isSupported v, o.name.or o.source.fileName? with
  | some v, _ =>
      some ("Unsupported Laravel version '" ++ v ++ "'. Expected one of: " ++
        ", ".intercalate Laravel.supportedVersions)
  | none, none => some "Cannot derive a project name from the source path, pass --name"
  | none, some _ => none

def outcomeText (format : Format) (o : Outcome) : String :=
  match format with
  | .json => o.toJson.pretty ++ "\n"
  | .terminal => o.summary false

def migrateWith (t : Toolbox) (o : MigrateOptions) (c : Configuration) : Action Outcome := do
  let output ← if o.skipScaffold then pure o.output else Action.freshDirectory o.output
  let name := (o.name.or o.source.fileName?).getD ""
  let scaffolder := if o.skipScaffold then Scaffolding.existing else Scaffolding.composer t
  let resettlement := Resettlement.standard scaffolder c.target (mode c false) c.conversion
  ExceptT.lift (resettlement.run (Project.create o.source output name))

def migrate (t : Toolbox) (o : MigrateOptions) : StateM Disk Result := do
  match refusal? o with
  | some message => return .failed "" message
  | none =>
      match ← (migrateWith t o (overridden o (configuration (← get)))).finish with
      | .error e => return .ofError "" e
      | .ok outcome =>
          return ⟨if outcome.success then 0 else 1, outcomeText o.format outcome, none⟩

/-! ## Command lines -/

def Command.run (t : Toolbox) : Command → StateM Disk Result
  | .migrate o => Cli.migrate t o
  | .detect p => do return Cli.detect p (← get)
  | .analyze o => Cli.analyze o
  | .init force => Cli.init force

def usage : String :=
  "Usage: igniter-migrate [OPTIONS] <COMMAND>\n"

def run (t : Toolbox) (args : List String) : StateM Disk Result :=
  match Request.ofArguments args with
  | .run c => c.run t
  | .version => return .ok versionText
  | .help => return .ok usage
  | .mistake => return ⟨2, "", none⟩

end Resettle.Cli
