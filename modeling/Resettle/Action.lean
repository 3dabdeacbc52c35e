import Resettle.Disk

/-!
# Work on a disk

An action reads and changes a disk and ends with a value or an error.  Changes made before an
error stay made.
-/

namespace Resettle

/-- Work on a disk that may end with an error. -/
abbrev Action (α : Type) : Type :=
  ExceptT Error (StateM Disk) α

namespace Disk

variable (d : Disk)

def readText (p : Path) : Except Error String :=
  (d.text p).mapError (Error.ofRead p)

/-- The paths that are tried for a new directory: the requested one, then its name with `_1`,
`_2` and so on, one more of them than there are entries.  The numbers have 32 bits, so that the
least one comes behind the greatest. -/
def candidates (requested : Path) : List Path :=
  requested :: (List.range (d.entries.size + 1)).map fun k =>
    requested.numbered (Int32.ofNat (k + 1))

/-- The first candidate for a new directory that names nothing yet; none if the names with all
numbers are taken. -/
def freshPath? (requested : Path) : Option Path :=
  (d.candidates requested).find? fun p => !d.has p

end Disk

namespace Action

def readText (p : Path) : Action String := do
  ExceptT.mk (pure ((← get).readText p))

def writeText (p : Path) (s : String) : Action Unit := do
  match (← get).write p (.text s) with
  | .ok d => set d
  | .error cause => throw (.write p cause)

/-- Makes a directory and those above it, unless something has its path already. -/
def ensureDirectory (p : Path) : Action Unit := do
  if !(← get).has p then
    let (result, d) := (← get).makePath p
    set d
    match result with
    | .ok () => pure ()
    | .error cause => throw (.write p cause)

/-- Makes a directory that was not there before, and answers its path.  The search for a path has
no end if the names with all numbers are taken; that is kept as an error. -/
def freshDirectory (requested : Path) : Action Path := do
  match (← get).freshPath? requested with
  | some p =>
      ensureDirectory p
      return p
  | none => throw (.write requested .alreadyExists)

/-- An action that reads and changes nothing. -/
def reading {α : Type} (f : Disk → Except Error α) : Action α := do
  ExceptT.mk (pure (f (← get)))

def finish {α : Type} (a : Action α) : StateM Disk (Except Error α) :=
  a.run

end Action

end Resettle
