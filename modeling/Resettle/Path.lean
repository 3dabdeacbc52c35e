import Resettle.Text.Lines

/-!
# Paths

A path is kept as it was spelled, because messages show it that way.  Which place it names is a
matter of its components: repeated separators count once, a `.` counts only in front, and a `..`
stays.  `join`, `parent?` and `withFileName` work on the spelling.
-/

namespace Resettle

structure Path where
  text : String
deriving DecidableEq, Repr

namespace Path

instance : Inhabited Path :=
  ⟨⟨""⟩⟩

/-- The stretches of the spelling between separators, empty ones included. -/
def segments (p : Path) : List String :=
  (Text.split '/' p.text.toList).map String.ofList

def isAbsolute (p : Path) : Bool :=
  p.text.toList.head? == some '/'

/-- The components that tell which place the path names: the root as `/`, a leading `.`, and the
other segments that are neither empty nor `.`. -/
def place (p : Path) : List String :=
  let names := p.segments.filter fun s => s ≠ "" && s ≠ "."
  if p.isAbsolute then "/" :: names
  else if p.segments.head? = some "." then "." :: names
  else names

/-- The path `part` seen from `base`.  An absolute part stands for itself, and an empty one only
adds a separator. -/
def join (base : Path) (part : String) : Path :=
  if part.toList.head? = some '/' then ⟨part⟩
  else if base.text = "" ∨ base.text.toList.getLast? = some '/' then ⟨base.text ++ part⟩
  else ⟨base.text ++ "/" ++ part⟩

/-- The last component, unless it is the root, `.` or `..`. -/
def fileName? (p : Path) : Option String :=
  p.place.getLast?.filter fun s => s ≠ "/" && s ≠ "." && s ≠ ".."

/-- Segments in reverse order without those at the front that name nothing: empty ones and `.`,
except the first segment of the path. -/
def dropIdle : List (List Char) → List (List Char)
  | [] => []
  | [first] => [first]
  | s :: rest => if s = [] ∨ s = ['.'] then dropIdle rest else s :: rest

/-- The path without its last component, spelled as before; a path that is empty or only a root
has none. -/
def parent? (p : Path) : Option Path :=
  match p.place.getLast? with
  | none => none
  | some "/" => none
  | some _ =>
      let kept := dropIdle ((dropIdle (Text.split '/' p.text.toList).reverse).drop 1)
      if p.isAbsolute ∧ kept.length ≤ 1 then some ⟨"/"⟩
      else some ⟨String.ofList (Text.join '/' kept.reverse)⟩

/-- The path with another last component, or with one more if it ends in none. -/
def withFileName (p : Path) (name : String) : Path :=
  match p.fileName?, p.parent? with
  | some _, some parent => parent.join name
  | _, _ => p.join name

/-- The last component with a number behind it. -/
def numberedName (p : Path) (n : Int32) : String :=
  p.fileName?.getD "" ++ "_" ++ toString n

/-- The path with a number behind its last component. -/
def numbered (p : Path) (n : Int32) : Path :=
  p.withFileName (p.numberedName n)

/-- The file name up to its last dot, if a dot stands behind its first character. -/
def fileStem? (p : Path) : Option String :=
  p.fileName?.map fun name =>
    let reversed := name.toList.reverse
    let stem := ((reversed.dropWhile (· ≠ '.')).drop 1).reverse
    if stem = [] then name else String.ofList stem

/-- The path and the paths above it, nearest first, at most `depth` of them. -/
def ancestors (p : Path) : Nat → List Path
  | 0 => []
  | depth + 1 =>
      p :: (match p.parent? with
        | none => []
        | some parent => parent.ancestors depth)

end Path

end Resettle
