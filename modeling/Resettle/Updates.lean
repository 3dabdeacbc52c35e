import Resettle.ConnectionDriver
import Resettle.Number.Decimal
import Resettle.Settings
import Resettle.Text.Lines
import Resettle.Text.Search

/-!
# Updates of a target project

What the settings of a source project become in the target: ten assignments of the environment
file, and the fields of one database connection.
-/

namespace Resettle

/-- A host, and the port that was written behind it. -/
structure HostPort where
  host : String
  port : Option Nat
deriving DecidableEq, Repr

namespace HostPort

def maxPort : Nat :=
  65535

/-- A text without `https://` or `http://` in front. -/
def withoutScheme (s : String) : String :=
  match Text.drop? "https://".toList s.toList with
  | some rest => String.ofList rest
  | none =>
      match Text.drop? "http://".toList s.toList with
      | some rest => String.ofList rest
      | none => s

/-- A port in decimal digits, blanks around it aside. -/
def readPort? (s : String) : Option Nat :=
  readNatUpTo? 10 maxPort (Text.trim s.toList)

/-- A host name with its scheme removed: the host stands before the first colon, the port between
the first and the second. -/
def ofText (raw : String) : HostPort :=
  match (Text.split ':' (withoutScheme raw).toList).map String.ofList with
  | [] => ⟨"", none⟩
  | [host] => ⟨host, none⟩
  | host :: port :: _ => ⟨host, readPort? port⟩

end HostPort

namespace Updates

def textOr (values : Values) (names : List String) (fallback : String) : String :=
  ((values.lookup names).map Scalar.text).getD fallback

def hostPort (database : Values) : HostPort :=
  HostPort.ofText (textOr database ["hostname"] "127.0.0.1")

/-- The port that a setting of its own gives: an integer or a decimal text in range. -/
def explicitPort? (database : Values) : Option Nat :=
  match database.lookup ["port"] with
  | some (.int n) => if 0 ≤ n ∧ n ≤ HostPort.maxPort then some n.toNat else none
  | some (.string s) => HostPort.readPort? s
  | _ => none

/-- The port of the connection: the one behind the host, else the one that a setting gives, else
the driver's own. -/
def port (driver : ConnectionDriver) (database : Values) : Nat :=
  ((hostPort database).port.or (explicitPort? database)).getD driver.defaultPort

/-- The assignments of the environment file, in the order in which they are made. -/
def environment (config database : Values) (settings : Settings) : List (String × String) :=
  let driver := ConnectionDriver.ofValues database
  let debug := ((config.lookup ["debug"]).map Scalar.truthy).getD false
  let url := textOr config ["base_url", "baseURL"] "http://localhost"
  [("APP_NAME", textOr config ["site_title", "site_name"] settings.appName),
    ("APP_ENV", settings.appEnv),
    ("APP_DEBUG", if debug then "true" else "false"),
    ("APP_URL", HostPort.withoutScheme url),
    ("DB_CONNECTION", driver.name),
    ("DB_HOST", (hostPort database).host),
    ("DB_PORT", toString (port driver database)),
    ("DB_DATABASE", textOr database ["database"] ""),
    ("DB_USERNAME", textOr database ["username"] ""),
    ("DB_PASSWORD", textOr database ["password"] "")]

def connection (database : Values) : ConnectionDriver × List (String × Scalar) :=
  let driver := ConnectionDriver.ofValues database
  (driver, driver.fields database)

end Updates

end Resettle
