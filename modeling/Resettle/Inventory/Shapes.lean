import Resettle.Error
import Resettle.Inventory.Config
import Resettle.Inventory.Database
import Resettle.Inventory.Routes

/-!
# Shapes by generation

Where each generation keeps its settings and how its classes load, render and query.  A project of
unknown generation has no shapes.
-/

namespace Resettle.Generation

/-- A value for the known generations, an error for the unknown one. -/
def whenKnown {α : Type} (g : Generation) (older newer : α) : Except Error α :=
  match g with
  | ci2 => .ok older
  | ci3 => .ok older
  | ci4 => .ok newer
  | unknown => .error (.unsupportedGeneration g)

def configShape (g : Generation) : Except Error ConfigShape :=
  g.whenKnown (.elements "config") .properties

def databaseShape (g : Generation) : Except Error DatabaseShape :=
  g.whenKnown (.group "db" "default") (.property "default")

def controllerRules (g : Generation) : Except Error ClassRules :=
  g.whenKnown .loader .loaderAndFunctions

def modelRules (g : Generation) : Except Error ClassRules :=
  g.controllerRules.map ClassRules.withTables

def routeCollector (g : Generation) :
    Except Error (Collector Routes.State (List Route)) :=
  g.whenKnown Routes.collector Routes.collector

end Resettle.Generation
