/-!
# Settings of a conversion

What a user decides about a conversion beyond its source and its target.
-/

namespace Resettle

def defaultAppEnv : String :=
  "local"

def defaultAppName : String :=
  "Laravel Migration App"

structure Settings where
  /-- Whether a configuration file that cannot be read stops the conversion. -/
  strict : Bool := true
  /-- The environment that the project runs in. -/
  appEnv : String := defaultAppEnv
  /-- The name of the project if the source gives none. -/
  appName : String := defaultAppName
deriving DecidableEq, Repr

end Resettle
