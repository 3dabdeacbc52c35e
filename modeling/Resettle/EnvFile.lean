import Resettle.Text.Blank
import Resettle.Text.Search

/-!
# Environment files

An environment file assigns values to keys, one assignment `KEY=value` to a line.  A key that has
lines gets its new value on all of them.  A key that has none gets a line behind the last line
that starts with the key's prefix and an underscore, and without such a line it goes to the end of
the file.
-/

namespace Resettle.EnvFile

def needsQuotes (c : Char) : Bool :=
  Text.isBlank c || c == '"' || c == '\''

def quotedChar (c : Char) : List Char :=
  if c = '"' then ['\\', '"']
  else if c = '\r' then ['\\', 'r']
  else if c = '\n' then ['\\', 'n']
  else [c]

/-- A value as it is written: quoted if it holds blanks or quotes, else as it is. -/
def writtenValue (value : List Char) : List Char :=
  if value.any needsQuotes then '"' :: (value.flatMap quotedChar ++ ['"']) else value

def assignment (key value : List Char) : List Char :=
  key ++ '=' :: writtenValue value

def inValue (c : Char) : Bool :=
  c != '\r' && c != '\n'

/-- Whether some line starts with a key and an equals sign; `lineStart` tells whether the text
starts at the start of a line. -/
def assigns (key : List Char) : Bool → List Char → Bool
  | _, [] => false
  | lineStart, c :: cs =>
      (lineStart && (Text.drop? (key ++ ['=']) (c :: cs)).isSome) || assigns key (c == '\n') cs

/-- The text with `line` in place of each assignment to a key, up to the line's end or a carriage
return. -/
def replaceLines (key line : List Char) (lineStart : Bool) (cs : List Char) : List Char :=
  match cs with
  | [] => []
  | c :: rest =>
      match _taken : (if lineStart then Text.drop? (key ++ ['=']) (c :: rest) else none) with
      | some value => line ++ replaceLines key line false (value.dropWhile inValue)
      | none => c :: replaceLines key line (c == '\n') rest
termination_by cs.length
decreasing_by
  · split at _taken
    · have h := Text.length_of_drop?_eq_some _taken
      have h' := (List.dropWhile_sublist inValue (l := value)).length_le
      simp only [List.length_append, List.length_cons, List.length_nil] at h ⊢
      omega
    · cases _taken
  · simp

/-- The part of a key in front of its first underscore. -/
def keyPrefix (key : List Char) : List Char :=
  key.takeWhile (· ≠ '_')

/-- A line at the front of a text, its line feed included, and what follows. -/
def takeLine : List Char → List Char × List Char
  | [] => ([], [])
  | c :: cs =>
      if c = '\n' then (['\n'], cs)
      else
        let (line, rest) := takeLine cs
        (c :: line, rest)

theorem takeLine_append (cs : List Char) : (takeLine cs).1 ++ (takeLine cs).2 = cs := by
  induction cs with
  | nil => rfl
  | cons c cs ih =>
      simp only [takeLine]
      split
      · next h => simp [h]
      · simp [ih]

theorem takeLine_length_le (cs : List Char) : (takeLine cs).2.length ≤ cs.length := by
  have h := congrArg List.length (takeLine_append cs)
  simp only [List.length_append] at h
  omega

/-- The text up to the end of the last line that starts with `start`, and what follows it. -/
def splitBehindLast (start : List Char) (lineStart : Bool) (cs : List Char) :
    Option (List Char × List Char) :=
  match cs with
  | [] => none
  | c :: rest =>
      match _taken : (if lineStart ∧ start ≠ [] then Text.drop? start (c :: rest) else none) with
      | some behind =>
          let front := start ++ (takeLine behind).1
          match splitBehindLast start (front.getLast? == some '\n') (takeLine behind).2 with
          | some (more, last) => some (front ++ more, last)
          | none => some (front, (takeLine behind).2)
      | none =>
          (splitBehindLast start (c == '\n') rest).map fun found => (c :: found.1, found.2)
termination_by cs.length
decreasing_by
  · split at _taken
    · next hs =>
        have h := Text.length_of_drop?_eq_some _taken
        have h' := takeLine_length_le behind
        have h'' := List.length_pos_iff.2 hs.2
        simp only [List.length_cons] at h ⊢
        omega
    · cases _taken
  · simp

def isLineEnd (c : Char) : Bool :=
  c == '\r' || c == '\n'

def setChars (content key value : List Char) : List Char :=
  let line := assignment key value
  if assigns key true content then replaceLines key line true content
  else
    match splitBehindLast (keyPrefix key ++ ['_']) true content with
    | some (front, behind) =>
        front ++ (if front.getLast? = some '\n' then [] else ['\n']) ++ line ++ '\n' :: behind
    | none =>
        let kept := Text.dropWhileEnd isLineEnd content
        kept ++ (if kept = [] then [] else ['\n']) ++ line ++ ['\n']

def formatValue (value : String) : String :=
  String.ofList (writtenValue value.toList)

def set (content key value : String) : String :=
  String.ofList (setChars content.toList key.toList value.toList)

def setAll (content : String) (updates : List (String × String)) : String :=
  updates.foldl (fun content u => set content u.1 u.2) content

end Resettle.EnvFile
