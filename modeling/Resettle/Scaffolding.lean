import Resettle.Action
import Resettle.EnvFile
import Resettle.Program
import Resettle.Project
import Resettle.ScaffoldOptions
import Resettle.Text.Base64
import Resettle.Text.Blank

/-!
# Scaffolding

Target projects are made by the tools of Laravel, or are there already.  A new project gets an
application key of its own.
-/

namespace Resettle

/-- Something that sees to it that the target of a project is there. -/
abbrev Scaffolder :=
  Project → ScaffoldOptions → Action Unit

structure Toolbox where
  /-- The directories in which programs are looked for. -/
  searchPath : List Path
  /-- The random bytes of a new application key. -/
  keyBytes : List UInt8

namespace AppKey

def ofBytes (bytes : List UInt8) : String :=
  "base64:" ++ String.ofList (Text.Base64.encode bytes)

def write (bytes : List UInt8) (env : Path) : Action Unit := do
  let content ← Action.readText env
  Action.writeText env (EnvFile.set content "APP_KEY" (ofBytes bytes))

end AppKey

namespace Scaffolding

def requireFile (p : Path) : Action Unit := do
  if !(← get).isFile p then throw (.targetFileMissing p)

def existing : Scaffolder := fun project _ => do
  if !(← get).isDirectory project.target then
    throw (.scaffold s!"Laravel project not found at {project.target.text}")
  requireFile project.targetEnv
  requireFile project.targetDatabase

def findProgram (t : Toolbox) (name reason : String) : Action Path := do
  match Program.find? (← get) t.searchPath name with
  | some p => return p
  | none => throw (.scaffold reason)

/-- Runs a program in a directory; `failure` says what has failed if it does not end well. -/
def runProgram (p : Path) (args : List String) (dir : Path) (failure : String) : Action Unit := do
  match Program.run p args dir (← get) with
  | .error cause => throw (.scaffold (failure ++ ": " ++ cause.message))
  | .ok (result, d) =>
      set d
      if !result.exit.isSuccess then
        throw (.scaffold
          (failure ++ " (" ++ result.exit.message ++ "): " ++ Text.trimmed result.errors))

/-- Makes the target project with Composer, puts Sail into it if that is asked for, and gives it
an application key. -/
def composer (t : Toolbox) : Scaffolder := fun project options => do
  let program ← findProgram t "composer"
    "Composer is not found in your PATH. Install Composer or make it accessible."
  Action.ensureDirectory project.output
  runProgram program ["create-project", "laravel/laravel=" ++ options.version, project.name]
    project.output s!"Failed to create Laravel project '{project.name}'"
  if options.sail then
    let php ← findProgram t "php" "php is not found in your PATH"
    runProgram php ["artisan", "sail:install"] project.target
      s!"Failed to install Laravel Sail in '{project.target.text}'"
  AppKey.write t.keyBytes project.targetEnv

end Scaffolding

end Resettle
