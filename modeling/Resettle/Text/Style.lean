import Resettle.Text.Search

/-!
# Styled text

The weights and colours of a terminal.  A style is switched on in front of a text and off behind
it, also if the text is empty; where the text itself switches styles off, the style is switched
on again.
-/

namespace Resettle.Text

inductive Style where
  | bold
  | dimmed
  | cyan
  | green
  | red
  | yellow
deriving DecidableEq, Repr

namespace Style

def code : Style → String
  | bold => "1"
  | dimmed => "2"
  | red => "31"
  | green => "32"
  | yellow => "33"
  | cyan => "36"

def switchOn (styles : List Style) : String :=
  "\x1b[" ++ ";".intercalate (styles.map code) ++ "m"

def switchOff : String :=
  "\x1b[0m"

/-- A text in which `add` follows every occurrence of `mark`; a search of `fuel` steps. -/
def addBehind (mark add : List Char) : Nat → List Char → List Char
  | 0, cs => cs
  | fuel + 1, cs =>
      match search (drop? mark) cs with
      | none => cs
      | some (front, rest) => front ++ mark ++ add ++ addBehind mark add fuel rest

/-- A text in the given styles, or as it is where styles are not shown. -/
def apply (shown : Bool) (styles : List Style) (s : String) : String :=
  if shown then
    let inner := addBehind switchOff.toList (switchOn styles).toList s.length s.toList
    switchOn styles ++ String.ofList inner ++ switchOff
  else s

end Style

end Resettle.Text
