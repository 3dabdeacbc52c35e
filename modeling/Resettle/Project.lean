import Resettle.Generation
import Resettle.Path

/-!
# Projects

A source project that is moved, the directory it is moved to, and where the files of either side
lie.  Every place is computed from the roots and the generation.
-/

namespace Resettle

inductive Area where
  | controllers
  | models
  | libraries
  | helpers
deriving DecidableEq, Repr

namespace Area

def all : List Area :=
  [controllers, models, libraries, helpers]

/-- The name of an area's directory; generation 4 writes it with a capital. -/
def directory (a : Area) (g : Generation) : String :=
  match a, g with
  | controllers, .ci4 => "Controllers"
  | models, .ci4 => "Models"
  | libraries, .ci4 => "Libraries"
  | helpers, .ci4 => "Helpers"
  | controllers, _ => "controllers"
  | models, _ => "models"
  | libraries, _ => "libraries"
  | helpers, _ => "helpers"

end Area

/-- A source project and where it is moved to. -/
structure Project where
  /-- The directory of the source project. -/
  source : Path
  /-- The directory that the target project is put into. -/
  output : Path
  /-- The name of the target project. -/
  name : String
  /-- The generation of the source, once it has been told. -/
  told : Option Generation
deriving DecidableEq, Repr

namespace Project

/-- A project whose generation has not been told yet. -/
def create (source output : Path) (name : String) : Project :=
  ⟨source, output, name, none⟩

/-- The project with a generation told beforehand; an unknown one or a second one tells nothing. -/
def withGeneration (p : Project) (g : Generation) : Project :=
  if g.isKnown ∧ p.told = none then { p with told := some g } else p

variable (p : Project) (g : Generation)

def application : Path :=
  match g with
  | .ci4 => p.source.join "app"
  | _ => p.source.join "application"

def areaDir (a : Area) : Path :=
  (p.application g).join (a.directory g)

def configFile : Path :=
  match g with
  | .ci4 => (p.application g).join "Config/App.php"
  | _ => (p.application g).join "config/config.php"

def databaseFile : Path :=
  match g with
  | .ci4 => (p.application g).join "Config/Database.php"
  | _ => (p.application g).join "config/database.php"

def target : Path :=
  p.output.join p.name

def targetEnv : Path :=
  p.target.join ".env"

def targetDatabase : Path :=
  (p.target.join "config").join "database.php"

end Project

end Resettle
