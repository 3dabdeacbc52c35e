import Resettle.Batch
import Resettle.ConnectionBlock
import Resettle.EnvFile
import Resettle.Inventory.Shapes
import Resettle.Project
import Resettle.Updates

/-!
# Converting a project

The settings of a source project are read, and the environment file and the database
configuration of the target are patched with them.  Nothing is written before everything has been
read and both patches are known to succeed.
-/

namespace Resettle.Conversion

structure Sources where
  config : Values
  database : Values

/-- The settings of a configuration file.  One that cannot be read has none, or stops the
conversion if it is strict. -/
def config? (s : Settings) : Except Error Values → Option Values
  | .ok values => some values
  | .error _ => if s.strict then none else some .empty

/-- The settings of the source, or `none` if there is nothing to convert. -/
def sources (s : Settings) (g : Generation) (p : Project) (d : Disk) :
    Except Error (Option Sources) := do
  let configShape ← g.configShape
  match config? s (configShape.collector.ofFile d (p.configFile g)) with
  | none => return none
  | some config =>
      let databaseShape ← g.databaseShape
      match databaseShape.collector.ofFile d (p.databaseFile g) with
      | .error _ => return none
      | .ok database => return if database.isEmpty then none else some ⟨config, database⟩

structure Targets where
  env : String
  database : String

/-- A file of the target has to be there. -/
def require (d : Disk) (p : Path) : Except Error Unit :=
  if d.isFile p then .ok () else .error (.targetFileMissing p)

def targets (p : Project) (d : Disk) : Except Error Targets := do
  require d p.targetEnv
  require d p.targetDatabase
  return ⟨← d.readText p.targetEnv, ← d.readText p.targetDatabase⟩

def patched (s : Settings) (p : Project) (src : Sources) (t : Targets) : Except Error Targets :=
  let (driver, fields) := Updates.connection src.database
  match ConnectionBlock.patch? t.database driver.name fields with
  | none => .error (.patchLocation driver.name p.targetDatabase)
  | some database =>
      .ok ⟨EnvFile.setAll t.env (Updates.environment src.config src.database s), database⟩

/-- What a conversion writes, or `none` if there is nothing to convert. -/
def plan (s : Settings) (g : Generation) (p : Project) (d : Disk) :
    Except Error (Option Targets) := do
  match ← sources s g p d with
  | none => return none
  | some src => return some (← patched s p src (← targets p d))

/-- Converts a project, and answers whether there was something to convert. -/
def run (s : Settings) (g : Generation) (p : Project) : Action Bool := do
  match ← Action.reading (plan s g p) with
  | none => return false
  | some t =>
      Action.writeText p.targetDatabase t.database
      Action.writeText p.targetEnv t.env
      return true

end Resettle.Conversion
