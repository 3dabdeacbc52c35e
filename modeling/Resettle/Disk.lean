import Resettle.Dictionary
import Resettle.Error

/-!
# Disks

A disk holds files and directories under their places: lists of names, seen from the root.  Every
entry lies in a directory of the disk, and the root is always a directory.  Paths are walked name
by name from the working directory, so that each of their parts has to exist as what it is used
for; `walk` is the rule, and every operation is stated through it.
-/

namespace Resettle

/-- What a file holds: text, or bytes that are no text. -/
inductive Content where
  | text (s : String)
  | binary (bytes : List UInt8)
deriving DecidableEq, Repr

namespace Content

def bytes : Content → List UInt8
  | text s => s.toUTF8.toList
  | binary bytes => bytes

def ofBytes (bytes : List UInt8) : Content :=
  match String.fromUTF8? ⟨bytes.toArray⟩ with
  | some s => text s
  | none => binary bytes

def append : Content → Content → Content
  | text s, text t => text (s ++ t)
  | a, b => ofBytes (a.bytes ++ b.bytes)

/-- Whether a list occurs inside of another, without a gap. -/
def occursIn {α : Type} [BEq α] (part : List α) : List α → Bool
  | [] => part.isEmpty
  | c :: cs => part.isPrefixOf (c :: cs) || occursIn part cs

/-- Whether the bytes of a text occur in a file. -/
def holds (c : Content) (mark : String) : Bool :=
  occursIn mark.toUTF8.toList c.bytes

end Content

inductive Entry where
  | file (content : Content) (executable : Bool)
  | directory
deriving DecidableEq, Repr

/-- Where a file or directory lies, as the names on the way from the root. -/
abbrev Place :=
  List String

/-- The files and directories that there are, and the working directory. -/
structure Disk where
  entries : Dictionary Place Entry
  /-- Every entry lies in a directory. -/
  rooted : ∀ e ∈ entries.entries, ∃ dir name, e.1 = dir ++ [name] ∧
    (dir = [] ∨ (dir, Entry.directory) ∈ entries.entries)
  /-- The working directory. -/
  here : Place

namespace Disk

def empty (here : Place) : Disk where
  entries := .empty
  rooted := fun _ h => absurd h List.not_mem_nil
  here := here

instance : Inhabited Disk :=
  ⟨empty []⟩

variable (d : Disk)

def entryAt? (place : Place) : Option Entry :=
  if place = [] then some .directory else d.entries.get? place

def isDirectoryAt (place : Place) : Bool :=
  d.entryAt? place == some .directory

theorem mem_of_isDirectoryAt {d : Disk} {place : Place} (h : d.isDirectoryAt place = true) :
    place = [] ∨ (place, Entry.directory) ∈ d.entries.entries := by
  by_cases hp : place = []
  · exact .inl hp
  · simp only [isDirectoryAt, entryAt?, hp, if_false, beq_iff_eq] at h
    exact .inr (Dictionary.mem_of_find?_eq_some h)

/-! ## Changes -/

/-- The disk with an entry under a name of a directory.  Nothing changes if the directory does not
exist or a directory already has the name. -/
def add (dir : Place) (name : String) (e : Entry) : Disk :=
  if h : d.isDirectoryAt dir = true ∧ d.isDirectoryAt (dir ++ [name]) = false then
    { d with
      entries := d.entries.insert (dir ++ [name]) e
      rooted := by
        intro x hx
        have keep : ∀ p : Place, (p, Entry.directory) ∈ d.entries.entries →
            (p, Entry.directory) ∈ (d.entries.insert (dir ++ [name]) e).entries := by
          intro p hp
          refine Dictionary.mem_put_of_ne hp fun hkey => ?_
          have hkey : p = dir ++ [name] := hkey
          subst hkey
          have hget := (d.entries.get?_eq_some_iff).2 hp
          simp [isDirectoryAt, entryAt?, hget] at h
        rcases Dictionary.mem_of_mem_put hx with hx | hx
        · refine ⟨dir, name, by rw [hx], ?_⟩
          rcases mem_of_isDirectoryAt h.1 with hd | hd
          · exact .inl hd
          · exact .inr (keep dir hd)
        · obtain ⟨dir', name', hx', hd⟩ := d.rooted x hx
          refine ⟨dir', name', hx', ?_⟩
          rcases hd with hd | hd
          · exact .inl hd
          · exact .inr (keep dir' hd) }
  else d

/-- The disk without what lies at a place and below it. -/
def removeAt (place : Place) : Disk where
  entries :=
    { entries := d.entries.entries.filter fun e => !place.isPrefixOf e.1
      nodup := d.entries.nodup.sublist (List.filter_sublist.map _) }
  rooted := by
    intro x hx
    simp only [List.mem_filter, Bool.not_eq_true'] at hx
    obtain ⟨dir, name, hkey, hd⟩ := d.rooted x hx.1
    refine ⟨dir, name, hkey, ?_⟩
    rcases hd with hd | hd
    · exact .inl hd
    · refine .inr (List.mem_filter.2 ⟨hd, ?_⟩)
      rw [Bool.not_eq_true', Bool.eq_false_iff]
      intro hpre
      have hpre := List.isPrefixOf_iff_prefix.1 hpre
      have := List.isPrefixOf_iff_prefix.2 (hpre.trans (List.prefix_append dir [name]))
      rw [← hkey] at this
      simp [this] at hx
  here := d.here

def seenFrom (here : Place) : Disk :=
  { d with here := here }

/-! ## Paths -/

/-- The most bytes that a name may have. -/
def maxName : Nat :=
  255

/-- The place at the end of a walk that starts at a place and follows the segments of a path.
Each segment is taken inside of a directory; an empty one and a dot stay there and two dots lead
to the directory above. -/
def walk : Place → List String → Except Failure Place
  | place, [] => .ok place
  | place, name :: rest =>
      match d.entryAt? place with
      | none => .error .notFound
      | some (.file _ _) => .error .notDirectory
      | some .directory =>
          if name = "" ∨ name = "." then walk place rest
          else if name = ".." then walk place.dropLast rest
          else if maxName < name.utf8ByteSize then .error .nameTooLong
          else walk (place ++ [name]) rest

def start (p : Path) : Place :=
  if p.isAbsolute then [] else d.here

/-- The place that a path names, whether something lies there or not.  The empty path names
none. -/
def placeOf (p : Path) : Except Failure Place :=
  if p.text = "" then .error .notFound else d.walk (d.start p) p.segments

def look (p : Path) : Except Failure Entry := do
  match d.entryAt? (← d.placeOf p) with
  | some e => .ok e
  | none => .error .notFound

def has (p : Path) : Bool :=
  (d.look p).toBool

def isDirectory (p : Path) : Bool :=
  match d.look p with
  | .ok .directory => true
  | _ => false

def isFile (p : Path) : Bool :=
  match d.look p with
  | .ok (.file _ _) => true
  | _ => false

def content (p : Path) : Except Failure Content := do
  match ← d.look p with
  | .file c _ => .ok c
  | .directory => .error .isDirectory

def text (p : Path) : Except Failure String := do
  match ← d.content p with
  | .text s => .ok s
  | .binary _ => .error .notText

/-- A path cut in front of its last name: the segments that lead there, the name, and whether a
separator follows it. -/
structure Split where
  front : List String
  last : String
  slashed : Bool

/-- The last segment of a path that is not empty, with what stands around it. -/
def splitLast (p : Path) : Option Split :=
  match p.segments.reverse.span (· == "") with
  | (empties, last :: front) => some ⟨front.reverse, last, !empties.isEmpty⟩
  | (_, []) => none

/-- The directory that a new entry goes into, with the name of the entry. -/
def parentOf (p : Path) (s : Split) : Except Failure (Place × String) := do
  let dir ← d.walk (d.start p) s.front
  match d.entryAt? dir with
  | none => .error .notFound
  | some (.file _ _) => .error .notDirectory
  | some .directory =>
      if maxName < s.last.utf8ByteSize then .error .nameTooLong else .ok (dir, s.last)

/-- Whether a name leads nowhere new. -/
def isDots (name : String) : Bool :=
  name = "." || name = ".."

/-- The disk after content was put into a file, which is made if there is none.  The file stays
executable if it was. -/
def write (p : Path) (c : Content) : Except Failure Disk :=
  if p.text = "" then .error .notFound
  else
    match splitLast p with
    | none => .error .isDirectory
    | some s => do
        let (dir, name) ← d.parentOf p s
        if isDots s.last || s.slashed then .error .isDirectory
        else
          match d.entryAt? (dir ++ [name]) with
          | some .directory => .error .isDirectory
          | some (.file _ executable) => .ok (d.add dir name (.file c executable))
          | none => .ok (d.add dir name (.file c false))

def makeExecutable (p : Path) : Except Failure Disk :=
  match splitLast p with
  | none => .error .isDirectory
  | some s => do
      let (dir, name) ← d.parentOf p s
      match d.entryAt? (dir ++ [name]) with
      | some (.file c _) => .ok (d.add dir name (.file c true))
      | some .directory => .error .isDirectory
      | none => .error .notFound

def makeDirectory (p : Path) : Except Failure Disk :=
  if p.text = "" then .error .notFound
  else
    match splitLast p with
    | none => .error .alreadyExists
    | some s => do
        let (dir, name) ← d.parentOf p s
        if isDots s.last || (d.entryAt? (dir ++ [name])).isSome then .error .alreadyExists
        else .ok (d.add dir name .directory)

/-- Makes the directories of a list of paths, the last path first, where each is the parent of the
one in front of it.  A path that names a directory needs none.  Directories that were made before
a failure stay. -/
def makeAll : List Path → Disk → Except Failure Unit × Disk
  | [], d => (.ok (), d)
  | p :: parents, d =>
      if p.text = "" then (.ok (), d)
      else
        match d.makeDirectory p with
        | .ok made => (.ok (), made)
        | .error .notFound =>
            match makeAll parents d with
            | (.error cause, above) => (.error cause, above)
            | (.ok (), above) =>
                match above.makeDirectory p with
                | .ok made => (.ok (), made)
                | .error cause => (if above.isDirectory p then .ok () else .error cause, above)
        | .error cause => (if d.isDirectory p then .ok () else .error cause, d)

def makePath (p : Path) : Except Failure Unit × Disk :=
  makeAll (p.ancestors (p.text.length + 1)) d

/-- The disk with a directory and those above it, if all of them can be made. -/
def makeDirectories (p : Path) : Except Failure Disk :=
  match d.makePath p with
  | (.ok (), made) => .ok made
  | (.error cause, _) => .error cause

/-- The disk without what a path names and what lies below it. -/
def remove (p : Path) : Disk :=
  match d.placeOf p with
  | .ok place => if place = [] then d else d.removeAt place
  | .error _ => d

/-- The disk after content was put into a file, and the directories above it were made if they
were not there. -/
def plant (p : Path) (c : Content) : Except Failure Disk := do
  let above ←
    match p.parent? with
    | some parent => if d.has parent then .ok d else d.makeDirectories parent
    | none => .ok d
  above.write p c

/-- The order in which places are listed: by the first name in which they differ, a place before
what lies below it. -/
def comesBefore : Place → Place → Bool
  | [], _ => true
  | _ :: _, [] => false
  | a :: p, b :: q => if a = b then comesBefore p q else a < b

/-- Everything below a place, sorted by the names on the way, as paths that are seen from there.
The path of a directory ends in a separator. -/
def tree (place : Place) : List String :=
  let below := d.entries.entries.filter fun e =>
    place.isPrefixOf e.1 && place.length < e.1.length
  (below.mergeSort fun a b => comesBefore a.1 b.1).map fun e =>
    let text := "/".intercalate (e.1.drop place.length)
    if e.2 = .directory then text ++ "/" else text

def namesAt (place : Place) : List String :=
  (d.entries.keys.filterMap fun key =>
    if key.dropLast = place then key.getLast? else none).mergeSort (· ≤ ·)

def names (p : Path) : List String :=
  match d.placeOf p with
  | .ok place => d.namesAt place
  | .error _ => []

end Disk

end Resettle
