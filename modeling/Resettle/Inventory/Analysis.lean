import Resettle.Batch
import Resettle.Inventory.Report
import Resettle.Inventory.Shapes
import Resettle.Listing
import Resettle.Project

/-!
# Taking the inventory of a project

The controllers and models are the classes of the files in their directories, the routes come
from the controllers, and libraries and helpers are files.
-/

namespace Resettle.Inventory

/-- The classes of a batch under their names, or the stem of their file if they have none.  The
first class of a name stays. -/
def classes (b : Batch ClassFacts) : Dictionary String ClassEntry :=
  b.success.entries.foldl (fun found e =>
    found.insertIfNew (e.2.name.getD (e.1.fileStem?.getD ""))
      ⟨e.1, e.2.parent, e.2.methods, e.2.tables⟩) .empty

def byStem (files : List Path) : Dictionary String Path :=
  .ofList (files.map fun p => (p.fileStem?.getD "", p))

def ofProject (m : Mode) (g : Generation) (p : Project) (d : Disk) : Except Error Inventory := do
  let controllerRules ← g.controllerRules
  let modelRules ← g.modelRules
  let routeCollector ← g.routeCollector
  let controllerFiles := Listing.php d (p.areaDir g .controllers)
  let modelFiles := Listing.php d (p.areaDir g .models)
  let controllers := Batch.ofFiles m controllerRules.collector d controllerFiles
  let models := Batch.ofFiles m modelRules.collector d modelFiles
  let routes := Batch.ofFiles m routeCollector d controllerFiles
  return { controllers := classes controllers
           models := classes models
           routes := routes.success.entries.flatMap Prod.snd
           libraries := byStem (Listing.php d (p.areaDir g .libraries))
           helpers := byStem (Listing.php d (p.areaDir g .helpers))
           errors := ((PathMap.empty.insertMany controllers.errors.entries).insertMany
             models.errors.entries).insertMany routes.errors.entries }

end Resettle.Inventory
