import Resettle.Configuration
import Resettle.Disk

/-!
# Finding the configuration

The configuration of a directory is that of the nearest file in it or above it that can be read
and is valid, and the default if there is none.
-/

namespace Resettle.Configuration

def searchDepth : Nat :=
  10

/-- The configuration of the file in a directory, if it can be read and is valid. -/
def ofDirectory? (d : Disk) (dir : Path) : Option Configuration :=
  match d.text (dir.join fileName) with
  | .ok s => ofText? s
  | .error _ => none

def nearest (d : Disk) (dir : Path) : Configuration :=
  ((dir.ancestors searchDepth).findSome? (ofDirectory? d)).getD {}

end Resettle.Configuration
