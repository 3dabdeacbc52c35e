import Resettle.Cli.Run

/-!
# The program

Everything is worked out on a disk that holds a copy of the working directory, of the places that
the arguments name and of the tools on the search path.  Afterwards the copy is compared with what
it was, and the differences are carried out.
-/

namespace Resettle.Program

def placeOfText (path : String) : Place :=
  (Path.segments ⟨path⟩).filter fun name => name ≠ "" && name ≠ "."

def textOfPlace (place : Place) : String :=
  "/" ++ "/".intercalate place

def withDirectories (d : Disk) (place : Place) : Disk :=
  (List.range place.length).foldl (fun d n =>
    match place[n]? with
    | some name => d.add (place.take n) name .directory
    | none => d) d

/-- The disk with what lies at a place, directories down to a depth. -/
partial def load (depth : Nat) (executable : Bool) (d : Disk) (place : Place) : IO Disk := do
  let path := (← IO.currentDir) / textOfPlace place
  match place.getLast? with
  | none => return d
  | some name =>
      if ← path.isDir then
        let mut d := withDirectories d place
        if depth ≠ 0 then
          for child in ← path.readDir do
            d ← load (depth - 1) executable d (place ++ [child.fileName])
        return d
      else if ← path.pathExists then
        let bytes ← IO.FS.readBinFile path
        return (withDirectories d place.dropLast).add place.dropLast name
          (.file (.ofBytes bytes.toList) executable)
      else return d

def loadDepth : Nat :=
  64

/-- The disk with what an argument names, and with the names beside it. -/
def loadArgument (d : Disk) (here : Place) (arg : String) : IO Disk := do
  let place :=
    if (Path.mk arg).isAbsolute then placeOfText arg else here ++ placeOfText arg
  let d ← load 1 false d place.dropLast
  load loadDepth false d place

def toolNames : List String :=
  ["composer", "php"]

def loadTools (d : Disk) (directories : List String) : IO Disk := do
  let mut d := d
  for dir in directories do
    for name in toolNames do
      d ← load 0 true d (placeOfText dir ++ [name])
  return d

def carryOut (before after : Disk) : IO Unit := do
  let current ← IO.currentDir
  for (place, _) in before.entries.entries.reverse do
    if (after.entryAt? place).isNone then
      let path := current / textOfPlace place
      if ← path.isDir then IO.FS.removeDir path else IO.FS.removeFile path
  for (place, entry) in after.entries.entries do
    if before.entryAt? place ≠ some entry then
      let path := current / textOfPlace place
      match entry with
      | .directory => IO.FS.createDirAll path
      | .file content _ => IO.FS.writeBinFile path ⟨content.bytes.toArray⟩

def randomBytes (count : Nat) : IO (List UInt8) := do
  return (← IO.getRandomBytes count.toUSize).toList

end Resettle.Program

open Resettle Resettle.Program in
def main (args : List String) : IO UInt32 := do
  let here := placeOfText (← IO.currentDir).toString
  let searchPath := ((← IO.getEnv "PATH").getD "").splitOn ":"
  let mut d := withDirectories (Disk.empty here) here
  d ← load loadDepth false d here
  for dir in Path.ancestors ⟨textOfPlace here⟩ Configuration.searchDepth do
    d ← load 0 false d (placeOfText dir.text ++ [Configuration.fileName])
  for arg in args do
    d ← loadArgument d here arg
  d ← loadTools d searchPath
  let tools : Toolbox := ⟨searchPath.map fun dir => ⟨dir⟩, ← randomBytes 32⟩
  let (result, after) := (Cli.run tools args).run d
  carryOut d after
  IO.print result.output
  match result.error with
  | some message => IO.eprintln message
  | none => pure ()
  return result.status.toUInt32
