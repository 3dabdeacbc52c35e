/-!
# Scaffolding options

Which version of Laravel a target project is made with, and whether Sail comes with it.
-/

namespace Resettle

namespace Laravel

def supportedVersions : List String :=
  ["10.x", "9.x", "8.x"]

def defaultVersion : String :=
  "10.x"

def isSupported (version : String) : Bool :=
  supportedVersions.contains version

end Laravel

/-- What to scaffold, beyond the name and the place of the project. -/
structure ScaffoldOptions where
  version : String := Laravel.defaultVersion
  sail : Bool := false
deriving DecidableEq, Repr

end Resettle
