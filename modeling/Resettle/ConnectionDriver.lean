import Resettle.Scalar
import Resettle.Text.Blank

/-!
# Database drivers

The four drivers of database connections, the names under which a source project may ask for them,
and the fields that describe a connection of each.  Source projects spell some settings in two
ways; `Names` lists the spellings in the order in which they are looked up.
-/

namespace Resettle

/-- The spellings of a database setting, the preferred one first. -/
def Names.driver : List String :=
  ["dbdriver", "DBDriver"]

def Names.tablePrefix : List String :=
  ["dbprefix", "DBPrefix"]

def Names.charset : List String :=
  ["char_set", "charset"]

def Names.collation : List String :=
  ["dbcollat", "DBCollat"]

def Names.strict : List String :=
  ["stricton", "strictOn"]

inductive ConnectionDriver where
  | mysql
  | sqlite
  | pgsql
  | sqlsrv
deriving DecidableEq, Repr

namespace ConnectionDriver

def name : ConnectionDriver → String
  | mysql => "mysql"
  | sqlite => "sqlite"
  | pgsql => "pgsql"
  | sqlsrv => "sqlsrv"

/-- The driver that a source project asks for by a name, in any letter case; MySQL serves for every
name that is not known. -/
def ofSourceName (s : String) : ConnectionDriver :=
  match String.ofList ((Text.trim s.toList).map Char.toLower) with
  | "mysqli" | "mysql" => mysql
  | "sqlite3" | "sqlite" => sqlite
  | "postgre" | "pgsql" => pgsql
  | "sqlsrv" => sqlsrv
  | _ => mysql

/-- The driver that database settings name, MySQL if they name none. -/
def ofValues (values : Values) : ConnectionDriver :=
  match values.lookup Names.driver with
  | some v => ofSourceName v.text
  | none => mysql

def defaultPort : ConnectionDriver → Nat
  | mysql => 3306
  | pgsql => 5432
  | sqlsrv => 1433
  | sqlite => 3306

/-- A setting under one of its spellings, or a text in its place. -/
def settingOr (values : Values) (names : List String) (fallback : String) : Scalar :=
  (values.lookup names).getD (.string fallback)

/-- Whether the strict mode is on, as it is unless the settings turn it off. -/
def isStrict (values : Values) : Bool :=
  ((values.lookup Names.strict).map Scalar.truthy).getD true

/-- The fields of a connection of each driver, in the order in which they are written. -/
def fields (d : ConnectionDriver) (values : Values) : List (String × Scalar) :=
  ("driver", .string d.name) ::
    match d with
    | mysql =>
        [("charset", settingOr values Names.charset "utf8mb4"),
          ("collation", settingOr values Names.collation "utf8mb4_unicode_ci"),
          ("prefix", settingOr values Names.tablePrefix ""),
          ("prefix_indexes", .bool true),
          ("strict", .bool (isStrict values)),
          ("engine", .string "InnoDB")]
    | sqlite =>
        [("prefix", settingOr values Names.tablePrefix ""),
          ("foreign_key_constraints", .bool true)]
    | pgsql =>
        [("charset", settingOr values Names.charset "utf8"),
          ("prefix", settingOr values Names.tablePrefix ""),
          ("prefix_indexes", .bool true),
          ("schema", .string "public"),
          ("sslmode", .string "prefer")]
    | sqlsrv =>
        [("charset", settingOr values Names.charset "utf8"),
          ("prefix", settingOr values Names.tablePrefix ""),
          ("prefix_indexes", .bool true)]

end ConnectionDriver

end Resettle
