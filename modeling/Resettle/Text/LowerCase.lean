import Resettle.Text.LowerCase.Table

/-!
# Lower case

Texts in lower case by the full Unicode mapping: a capital sigma at the end of a word becomes
the final form of the letter, and a capital I with a dot keeps its dot as a combining mark.
-/

namespace Resettle.Text

namespace LowerCase

def Run.target? (r : Run) (n : Nat) : Option Nat :=
  if r.first ≤ n ∧ n ≤ r.last ∧ (n - r.first) % r.step = 0 then some (n + r.shift).toNat
  else none

def inRanges (ranges : List (Nat × Nat)) (n : Nat) : Bool :=
  ranges.any fun r => r.1 ≤ n && n ≤ r.2

/-- Whether a character has an upper, lower or title case of its own. -/
def isCased (c : Char) : Bool :=
  inRanges casedRanges c.toNat

/-- Whether a character is looked through when the surroundings of a letter are asked for. -/
def isIgnorable (c : Char) : Bool :=
  inRanges ignorableRanges c.toNat

/-- Whether a cased letter comes next, ignorable characters being looked through. -/
def letterNext (cs : List Char) : Bool :=
  match cs.dropWhile isIgnorable with
  | [] => false
  | c :: _ => isCased c

/-- The lower case of one character outside of any word. -/
def ofChar (c : Char) : List Char :=
  if c.val < 0x80 then [c.toLower]
  else if c = 'İ' then ['i', '\u0307']
  else
    match runs.findSome? fun r => r.target? c.toNat with
    | some n => [Char.ofNat n]
    | none => [c]

/-- The lower case of a text; `before` is what precedes it, nearest character first. -/
def ofText (before : List Char) : List Char → List Char
  | [] => []
  | c :: rest =>
      let here :=
        if c = 'Σ' then (if letterNext before && !letterNext rest then ['ς'] else ['σ'])
        else ofChar c
      here ++ ofText (c :: before) rest

end LowerCase

def lowerCase (s : String) : String :=
  String.ofList (LowerCase.ofText [] s.toList)

example : lowerCase "ΟΔΟΣ Σ" = "οδος σ" := by decide +kernel

example : lowerCase "İX" = "i̇x" := by decide +kernel

end Resettle.Text
