import Resettle.Shell.Run

/-!
# Programs

Finding a program by its name and running it.  A program is an executable file whose first line
names the interpreter of what follows, and the interpreter that is known is the shell.
-/

namespace Resettle

namespace Program

def isExecutable (d : Disk) (p : Path) : Bool :=
  match d.look p with
  | .ok (.file _ executable) => executable
  | _ => false

def find? (d : Disk) (directories : List Path) (name : String) : Option Path :=
  (directories.map fun dir => dir.join name).find? (isExecutable d)

def shells : List String :=
  ["/bin/sh", "/bin/dash", "/usr/bin/sh", "/usr/bin/dash"]

/-- The interpreter that the first line of a program names, with its argument. -/
def interpreter? (source : String) : Option (String × String) :=
  match source.toList with
  | '#' :: '!' :: rest =>
      let line := (rest.takeWhile (· ≠ '\n')).dropWhile fun c => c = ' ' || c = '\t'
      let name := line.takeWhile fun c => c ≠ ' ' && c ≠ '\t'
      let argument := (line.dropWhile fun c => c ≠ ' ' && c ≠ '\t').filter fun c =>
        c ≠ ' ' && c ≠ '\t'
      some (String.ofList name, String.ofList argument)
  | _ => none

/-- The result of a script that uses more of the language than is known. -/
def unreadable (p : Path) : Shell.Result :=
  ⟨.status 2, "", p.text ++ ": Syntax error\n"⟩

def script (d : Disk) (p : Path) : Except Failure (Option Shell.Script) := do
  match ← d.content p with
  | .binary _ => .error .notExecutable
  | .text source =>
      match interpreter? source with
      | none => .error .notExecutable
      | some (name, argument) =>
          if !shells.contains name then .error .notFound
          else
            let options := if argument = "" then "" else "set " ++ argument ++ "\n"
            .ok (Shell.Script.ofText? (options ++ source))

/-- Runs a program in a directory.  It may not start at all; once it has started it may have
changed the disk however it ends. -/
def run (p : Path) (args : List String) (dir : Path) (d : Disk) :
    Except Failure (Shell.Result × Disk) := do
  let place ← d.placeOf dir
  match d.entryAt? place with
  | none => .error .notFound
  | some (.file _ _) => .error .notDirectory
  | some .directory =>
      match ← script d p with
      | none => .ok (unreadable p, d)
      | some s =>
          let (result, changed) := Shell.run s (p.text :: args) (d.seenFrom place)
          .ok (result, changed.seenFrom d.here)

end Program

end Resettle
