import Resettle.Disk

/-!
# Listing files

The files of one kind in a directory, its subdirectories left aside.  The paths that are listed
start as the directory is spelled, except that a dot in front is dropped.
-/

namespace Resettle.Listing

/-- The path that one more segment leads to, if something is there.  From the working directory
it is the segment itself. -/
def follow? (d : Disk) (p : Path) (segment : String) : Option Path :=
  let next := if p.text = "." then ⟨segment⟩ else p.join segment
  if d.has next then some next else none

def spelled? (d : Disk) (dir : Path) : Option Path :=
  if dir.isAbsolute then (dir.segments.drop 1).foldlM (follow? d) ⟨"/"⟩
  else dir.segments.foldlM (follow? d) ⟨"."⟩

def child (dir : Path) (name : String) : Path :=
  if dir.text = "." then ⟨name⟩ else dir.join name

/-- The files of a directory with an extension, sorted by name.  A directory that does not exist
has none. -/
def withExtension (d : Disk) (dir : Path) (extension : String) : List Path :=
  if !d.isDirectory dir then []
  else
    match spelled? d dir with
    | none => []
    | some p =>
        let ending := '.' :: extension.toList.dropWhile (· = '.')
        let fitting := (d.names p).filter fun name => ending.isSuffixOf name.toList
        (fitting.map (child p)).filter d.isFile

def php (d : Disk) (dir : Path) : List Path :=
  withExtension d dir "php"

end Resettle.Listing
