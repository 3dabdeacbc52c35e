import Resettle.Error
import Resettle.Json.Reader
import Resettle.Json.Record
import Resettle.ScaffoldOptions

/-!
# Requests to start a migration

What a client says when it starts a migration that it registered, and which requests are
accepted.
-/

namespace Resettle

structure StartRequest where
  projectName : String
  version : String
  sail : Bool := false
deriving DecidableEq, Repr

namespace StartRequest

def isFitting (name : String) : Bool :=
  3 ≤ name.length && name.length ≤ 255

def refusal? (r : StartRequest) : Option Error :=
  if !isFitting r.projectName then
    some (.validation "project_name must be between 3 and 255 characters")
  else if !Laravel.isSupported r.version then
    some (.validation
      ("laravel_version must be one of: " ++ ", ".intercalate Laravel.supportedVersions))
  else none

def options (r : StartRequest) : ScaffoldOptions :=
  ⟨r.version, r.sail⟩

def ofJson? (j : Json) : Option StartRequest := do
  let r ← Json.Record.ofJson? ["project_name", "laravel_version", "install_sail"] j
  return { projectName := ← r.required? "project_name" Json.asText?
           version := ← r.required? "laravel_version" Json.asText?
           sail := ← r.withDefault? "install_sail" false Json.asBool? }

end StartRequest

end Resettle
