import Resettle.Disk
import Resettle.Project

/-!
# Telling the generation of a project

Each generation of CodeIgniter leaves its own traces in the `system` directory.  The rules are
tried in order, and the first that applies tells the generation.
-/

namespace Resettle

namespace Generation

/-- The word that the bootstrap file of generation 2 defines. -/
def marker : String :=
  "CI_VERSION"

/-- Whether a file can be read and holds the word. -/
def isMarked (d : Disk) (p : Path) : Bool :=
  match d.content p with
  | .ok c => c.holds marker
  | .error _ => false

def detect (d : Disk) (root : Path) : Generation :=
  let system := root.join "system"
  let core := system.join "core"
  let hasCore := d.isDirectory core
  let hasCompat := d.isDirectory (core.join "compat")
  if hasCore && !hasCompat && isMarked d (core.join "CodeIgniter.php") then ci2
  else if hasCore && hasCompat then ci3
  else if d.isFile (system.join "bootstrap.php") && !hasCore then ci4
  else unknown

end Generation

namespace Project

/-- The generation of a project, told from the disk unless it was told before. -/
def generation (p : Project) (d : Disk) : Generation :=
  p.told.getD (Generation.detect d p.source)

/-- The project with its generation told; an unknown one is looked for again. -/
def tell (p : Project) (d : Disk) : Project :=
  p.withGeneration (p.generation d)

end Project

end Resettle
