import Resettle.Text.Blank
import Resettle.Text.Lines

/-!
# Summaries of method bodies

A method body shown as a PHP snippet of its own: the lines from its first to its last line that
is not blank, moved to the left by the indentation that they share.  Indentation is measured in
bytes of UTF-8.
-/

namespace Resettle.Php

def byteLength (cs : List Char) : Nat :=
  cs.foldl (fun n c => n + c.utf8Size) 0

/-- The text behind its first `n` bytes, if a character starts there. -/
def dropBytes? : Nat → List Char → Option (List Char)
  | 0, cs => some cs
  | _ + 1, [] => none
  | n + 1, c :: cs => if c.utf8Size ≤ n + 1 then dropBytes? (n + 1 - c.utf8Size) cs else none

def isBlankLine (line : List Char) : Bool :=
  line.all Text.isBlank

def indentation (line : List Char) : Nat :=
  byteLength (line.takeWhile Text.isBlank)

def insideBraces (body : List Char) : List Char :=
  match Text.trim body with
  | '{' :: rest => if rest.getLast? = some '}' then rest.dropLast else body
  | _ => body

/-- The lines of a text from the first to the last that is not blank. -/
def coreLines (cs : List Char) : List (List Char) :=
  (((Text.lines cs).dropWhile isBlankLine).reverse.dropWhile isBlankLine).reverse

/-- The least indentation among the lines that are not blank. -/
def commonIndentation (lines : List (List Char)) : Nat :=
  (((lines.filter fun line => !isBlankLine line).map indentation).min?).getD 0

/-- A line moved to the left by some bytes, its trailing blanks removed. -/
def outdent (n : Nat) (line : List Char) : List Char :=
  match dropBytes? n line with
  | some rest => Text.trimEnd rest
  | none => Text.trim line

def summary (body : List Char) : List Char :=
  let lines := coreLines (insideBraces body)
  "<?php\n".toList ++
    Text.join '\n' (lines.map (outdent (commonIndentation lines))) ++ "\n?>".toList

end Resettle.Php
