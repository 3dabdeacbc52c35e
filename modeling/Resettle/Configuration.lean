import Resettle.ScaffoldOptions
import Resettle.Settings
import Resettle.Text.Blank
import Resettle.Toml.Reader

/-!
# The configuration file

The settings that a project can keep in a file.  Values of the wrong kind make the file invalid;
a version that cannot be used and a blank environment are replaced by their defaults.
-/

namespace Resettle

structure Configuration where
  target : ScaffoldOptions := {}
  conversion : Settings := {}
  /-- Whether several files are parsed at a time. -/
  parallel : Bool := true
deriving DecidableEq, Repr

namespace Configuration

def fileName : String :=
  ".igniter-migrate.toml"

/-- The fields of a section with their names.  A section is a table, or an array of its first
fields in their order; a date has none of them. -/
def sectionFields? (names : List String) : Toml.Value → Option (List (String × Toml.Value))
  | .table _ entries => some (entries.map fun e => (String.ofList e.1, e.2))
  | .array items => some (names.zip items)
  | .tables items => some (names.zip (items.reverse.map (Toml.Value.table .header)))
  | .date _ => some []
  | _ => none

def text? : Toml.Value → Option String
  | .text s => some (String.ofList s)
  | _ => none

def bool? : Toml.Value → Option Bool
  | .bool b => some b
  | _ => none

/-- The value of a field, or its default if it is missing. -/
def field? {α : Type} (fields : List (String × Toml.Value)) (name : String) (fallback : α)
    (read? : Toml.Value → Option α) : Option α :=
  match fields.find? fun f => f.1 == name with
  | none => some fallback
  | some f => read? f.2

/-- The fields of a section of a document; a missing section has none. -/
def section? (entries : Toml.Entries) (name : String) (names : List String) :
    Option (List (String × Toml.Value)) :=
  match entries.get? name.toList with
  | none => some []
  | some v => sectionFields? names v

/-- The configuration that a document states, as it stands there. -/
def ofEntries? (entries : Toml.Entries) : Option Configuration := do
  let target ← section? entries "target"
    ["laravel_version", "install_sail", "app_env", "default_app_name"]
  let conversion ← section? entries "conversion" ["strict"]
  let parsing ← section? entries "parsing" ["parallel"]
  let version ← field? target "laravel_version" Laravel.defaultVersion text?
  let sail ← field? target "install_sail" false bool?
  let appEnv ← field? target "app_env" defaultAppEnv text?
  let appName ← field? target "default_app_name" defaultAppName text?
  let strict ← field? conversion "strict" true bool?
  let parallel ← field? parsing "parallel" true bool?
  return { target := { version, sail }, conversion := { strict, appEnv, appName }, parallel }

def repaired (c : Configuration) : Configuration :=
  { c with
    target := { c.target with
      version := if Laravel.isSupported c.target.version then c.target.version
        else Laravel.defaultVersion }
    conversion := { c.conversion with
      appEnv := if Text.trimmed c.conversion.appEnv = "" then defaultAppEnv
        else c.conversion.appEnv } }

def ofText? (s : String) : Option Configuration :=
  (Toml.ofText? s).bind fun entries => (ofEntries? entries).map repaired

/-- The lines of a new configuration file, which state the defaults. -/
def templateLines : List String :=
  ["# igniter-migrate configuration",
    "",
    "[target]",
    "# Version constraint for `composer create-project laravel/laravel=<version>`",
    "laravel_version = \"10.x\"",
    "# Run `php artisan sail:install` after scaffolding",
    "install_sail = false",
    "# Value written to APP_ENV",
    "app_env = \"local\"",
    "# APP_NAME when the CodeIgniter config sets neither site_title nor site_name",
    "default_app_name = \"Laravel Migration App\"",
    "",
    "[conversion]",
    "# Stop the conversion when config.php cannot be parsed",
    "strict = true",
    "",
    "[parsing]",
    "# Parse controllers and models in parallel",
    "parallel = true"]

def template : String :=
  String.join (templateLines.map (· ++ "\n"))

end Configuration

end Resettle
