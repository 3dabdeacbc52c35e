import Mathlib.Data.List.Infix

/-!
# Marking the text of an array

A reader of PHP source that takes one character at a time, from behind the bracket that opens an
array up to the one that closes it.  It marks what is part of a comment, what strings and inner
brackets enclose, and what stands directly in the array.  What it makes of a text does not depend
on what follows the text.  Heredocs and closing tags are not read.
-/

namespace Resettle.Php

/-- What a reader has to remember of the characters that it has just read. -/
inductive Mode where
  | plain
  | slash
  | hash
  | question
  | angle
  | angles
  | lineComment
  | lineQuestion
  | lineReturn
  | blockComment
  | blockStar
  | escape
  | dollar
  | brace
  | closed
  | lost
deriving DecidableEq, Repr

/-- What a character of an array's text is part of. -/
inductive Mark where
  | comment (c : Char)
  | inner (c : Char)
  | direct (c : Char)
deriving DecidableEq, Repr

/-- A mode, and the brackets and quotes that are still to come, the innermost first. -/
structure Reader where
  mode : Mode
  closers : List Char
deriving DecidableEq, Repr

namespace Mark

def isComment : Mark → Bool
  | comment _ => true
  | _ => false

/-- A comma between two items of the array. -/
def isComma : Mark → Bool
  | direct ',' => true
  | _ => false

def char : Mark → Char
  | comment c => c
  | inner c => c
  | direct c => c

end Mark

namespace Reader

def start : Reader :=
  ⟨.plain, []⟩

def lost : Reader :=
  ⟨.lost, []⟩

def isQuote (c : Char) : Bool :=
  c == '\'' || c == '"' || c == '\x60'

def closer? (c : Char) : Option Char :=
  if c = '(' then some ')'
  else if c = '[' then some ']'
  else if c = '{' then some '}'
  else if isQuote c then some c
  else none

def mark (closers : List Char) (c : Char) : Mark :=
  if closers = [] then .direct c else .inner c

/-- A closing bracket, which closes the array if no bracket is open in it. -/
def close (closers : List Char) (c : Char) : Reader × List Mark :=
  match closers with
  | d :: outer => if c = d then (⟨.plain, outer⟩, [.inner c]) else (lost, [])
  | [] => if c = ']' then (⟨.closed, []⟩, []) else (lost, [])

/-- The mode behind a character of code. -/
def codeMode (c : Char) : Mode :=
  if c = '/' then .slash
  else if c = '#' then .hash
  else if c = '?' then .question
  else if c = '<' then .angle
  else .plain

/-- A character of code.  A slash or a hash is marked with the next character, which says whether
it opens a comment. -/
def codeStep (closers : List Char) (c : Char) : Reader × List Mark :=
  match closer? c with
  | some d => (⟨.plain, d :: closers⟩, [.inner c])
  | none =>
      if c = ')' ∨ c = ']' ∨ c = '}' then close closers c
      else (⟨codeMode c, closers⟩, if c = '/' ∨ c = '#' then [] else [mark closers c])

/-- The mode behind a character of a string, where double quotes interpolate. -/
def stringMode (quote c : Char) : Mode :=
  if c = '\\' then .escape
  else if quote = '\'' then .plain
  else if c = '$' then .dollar
  else if c = '{' then .brace
  else .plain

def stringStep (quote : Char) (outer : List Char) (c : Char) : Reader × List Mark :=
  if c = quote then (⟨.plain, outer⟩, [.inner c])
  else (⟨stringMode quote c, quote :: outer⟩, [.inner c])

def plainStep (closers : List Char) (c : Char) : Reader × List Mark :=
  match closers with
  | quote :: outer => if isQuote quote then stringStep quote outer c else codeStep closers c
  | [] => codeStep closers c

def lineStep (closers : List Char) (c : Char) : Reader × List Mark :=
  if c = '\n' then (⟨.plain, closers⟩, [mark closers c])
  else if c = '\r' then (⟨.lineReturn, closers⟩, [mark closers c])
  else (⟨if c = '?' then .lineQuestion else .lineComment, closers⟩, [.comment c])

/-- The reader behind one more character, and the marks that it adds. -/
def step (r : Reader) (c : Char) : Reader × List Mark :=
  match r.mode with
  | .plain => plainStep r.closers c
  | .slash =>
      if c = '/' then (⟨.lineComment, r.closers⟩, [.comment '/', .comment c])
      else if c = '*' then (⟨.blockComment, r.closers⟩, [.comment '/', .comment c])
      else ((codeStep r.closers c).1, mark r.closers '/' :: (codeStep r.closers c).2)
  | .hash =>
      if c = '[' then ((codeStep r.closers c).1, mark r.closers '#' :: (codeStep r.closers c).2)
      else ((lineStep r.closers c).1, .comment '#' :: (lineStep r.closers c).2)
  | .question => if c = '>' then (lost, []) else codeStep r.closers c
  | .angle => if c = '<' then (⟨.angles, r.closers⟩, [mark r.closers c]) else codeStep r.closers c
  | .angles => if c = '<' then (lost, []) else codeStep r.closers c
  | .lineComment => lineStep r.closers c
  | .lineQuestion => if c = '>' then (lost, []) else lineStep r.closers c
  | .lineReturn =>
      if c = '\n' then (⟨.plain, r.closers⟩, [mark r.closers c]) else (lost, [])
  | .blockComment =>
      (⟨if c = '*' then .blockStar else .blockComment, r.closers⟩, [.comment c])
  | .blockStar =>
      (⟨if c = '/' then .plain else if c = '*' then .blockStar else .blockComment, r.closers⟩,
        [.comment c])
  | .escape => (⟨.plain, r.closers⟩, [.inner c])
  | .dollar =>
      if c = '{' then (⟨.plain, '}' :: r.closers⟩, [.inner c]) else plainStep r.closers c
  | .brace =>
      if c = '$' then (⟨.plain, '}' :: r.closers⟩, [.inner c]) else plainStep r.closers c
  | .closed => (r, [])
  | .lost => (r, [])

def run (r : Reader) (cs : List Char) : Reader :=
  cs.foldl (fun r c => (r.step c).1) r

def marks (r : Reader) : List Char → List Mark
  | [] => []
  | c :: cs => (r.step c).2 ++ marks (r.step c).1 cs

@[simp] theorem marks_nil (r : Reader) : r.marks [] = [] :=
  rfl

theorem run_cons (r : Reader) (c : Char) (cs : List Char) :
    r.run (c :: cs) = (r.step c).1.run cs :=
  rfl

theorem marks_cons (r : Reader) (c : Char) (cs : List Char) :
    r.marks (c :: cs) = (r.step c).2 ++ (r.step c).1.marks cs :=
  rfl

theorem run_append (r : Reader) (xs ys : List Char) : r.run (xs ++ ys) = (r.run xs).run ys :=
  List.foldl_append

theorem marks_append (r : Reader) (xs ys : List Char) :
    r.marks (xs ++ ys) = r.marks xs ++ (r.run xs).marks ys := by
  induction xs generalizing r with
  | nil => rfl
  | cons c xs ih =>
      rw [List.cons_append, marks_cons, marks_cons, run_cons, ih, List.append_assoc]

variable {c : Char} {cs closers : List Char} {r : Reader} {m : Mark}

/-! ## Marked characters -/

theorem char_mark (closers : List Char) (c : Char) : (mark closers c).char = c := by
  unfold mark
  split <;> rfl

theorem char_of_mem_close (h : m ∈ (close closers c).2) : m.char = c := by
  unfold close at h
  split at h <;> split at h <;> simp_all [Mark.char]

theorem char_of_mem_codeStep (h : m ∈ (codeStep closers c).2) : m.char = c := by
  unfold codeStep at h
  split at h
  · rw [List.mem_singleton.1 h]
    rfl
  · split at h
    · exact char_of_mem_close h
    · split at h
      · cases h
      · rw [List.mem_singleton.1 h, char_mark]

theorem char_of_mem_plainStep (h : m ∈ (plainStep closers c).2) : m.char = c := by
  unfold plainStep stringStep at h
  split at h
  · split at h
    · split at h <;> simp_all [Mark.char]
    · exact char_of_mem_codeStep h
  · exact char_of_mem_codeStep h

theorem char_of_mem_lineStep (h : m ∈ (lineStep closers c).2) : m.char = c := by
  unfold lineStep at h
  split at h
  · rw [List.mem_singleton.1 h, char_mark]
  · split at h
    · rw [List.mem_singleton.1 h, char_mark]
    · rw [List.mem_singleton.1 h]
      rfl

/-- What a step marks is the character, or a slash or a hash in front of it. -/
theorem char_of_mem_step (h : m ∈ (r.step c).2) :
    m.char = c ∨ m.char = '/' ∨ m.char = '#' := by
  have hcode := @char_of_mem_codeStep c r.closers m
  have hplain := @char_of_mem_plainStep c r.closers m
  have hline := @char_of_mem_lineStep c r.closers m
  unfold step at h
  split at h <;> grind [Mark.char, char_mark]

theorem char_of_isComma (h : m.isComma = true) : m.char = ',' := by
  unfold Mark.isComma at h
  split at h
  · rfl
  · cases h

theorem isComma_eq_false_of_notMem (h : ',' ∉ cs) : ∀ m ∈ r.marks cs, m.isComma = false := by
  induction cs generalizing r with
  | nil => exact List.forall_mem_nil _
  | cons c cs ih =>
      rw [List.mem_cons, not_or] at h
      rw [marks_cons, List.forall_mem_append]
      refine ⟨fun m hm => ?_, ih h.2⟩
      rw [Bool.eq_false_iff]
      intro hcomma
      have hchar := char_of_isComma hcomma
      rcases char_of_mem_step hm with hm | hm | hm <;> rw [hchar] at hm
      · exact h.1 hm
      · exact absurd hm (by decide)
      · exact absurd hm (by decide)

/-! ## Plain characters -/

/-- The characters of code that do more than stand there. -/
def special : List Char :=
  ['(', ')', '[', ']', '{', '}', '\'', '"', '\x60', '/', '#', '?', '<']

theorem codeStep_of_notMem (h : c ∉ special) (closers : List Char) :
    codeStep closers c = (⟨.plain, closers⟩, [mark closers c]) := by
  simp only [special, List.mem_cons, List.not_mem_nil, or_false, not_or] at h
  simp [codeStep, closer?, isQuote, codeMode, h]

theorem step_of_notMem (h : c ∉ special) : start.step c = (start, [.direct c]) := by
  show codeStep [] c = _
  rw [codeStep_of_notMem h]
  rfl

theorem run_of_notMem (h : ∀ c ∈ cs, c ∉ special) : start.run cs = start := by
  induction cs with
  | nil => rfl
  | cons c cs ih =>
      obtain ⟨hc, hcs⟩ := List.forall_mem_cons.1 h
      rw [run_cons, step_of_notMem hc]
      exact ih hcs

theorem marks_of_notMem (h : ∀ c ∈ cs, c ∉ special) : start.marks cs = cs.map .direct := by
  induction cs with
  | nil => rfl
  | cons c cs ih =>
      obtain ⟨hc, hcs⟩ := List.forall_mem_cons.1 h
      rw [marks_cons, step_of_notMem hc, ih hcs]
      rfl

/-! ## Line feeds and comments of one line -/

theorem isComment_mark (closers : List Char) (c : Char) : (mark closers c).isComment = false := by
  unfold mark
  split <;> rfl

theorem codeStep_feed (closers : List Char) :
    codeStep closers '\n' = (⟨.plain, closers⟩, [mark closers '\n']) :=
  codeStep_of_notMem (by decide) closers

theorem plainStep_feed (closers : List Char) :
    ∃ m, (plainStep closers '\n').2 = [m] ∧ m.isComment = false := by
  unfold plainStep stringStep
  split
  · split
    · split <;> exact ⟨_, rfl, rfl⟩
    · exact ⟨_, by rw [codeStep_feed], isComment_mark _ _⟩
  · exact ⟨_, by rw [codeStep_feed], isComment_mark _ _⟩

/-- A line feed behind which the reader is in the array again is no part of a comment. -/
theorem step_feed (h : (r.step '\n').1 = start) :
    ∃ ms m, (r.step '\n').2 = ms ++ [m] ∧ m.isComment = false := by
  obtain ⟨mode, closers⟩ := r
  have hcode := congrArg Prod.snd (codeStep_feed closers)
  have hmark := isComment_mark closers '\n'
  cases mode with
  | plain | dollar | brace =>
      obtain ⟨m, hm, hcomment⟩ := plainStep_feed closers
      exact ⟨[], m, hm, hcomment⟩
  | question | angle | angles => exact ⟨[], _, hcode, hmark⟩
  | slash => exact ⟨[mark closers '/'], _, congrArg (mark closers '/' :: ·) hcode, hmark⟩
  | hash => exact ⟨[.comment '#'], _, rfl, hmark⟩
  | lineComment | lineQuestion | lineReturn => exact ⟨[], _, rfl, hmark⟩
  | escape => exact ⟨[], _, rfl, rfl⟩
  | blockComment | blockStar | closed | lost => cases h

theorem exists_marks_feed (h : r.run (cs ++ ['\n']) = start) :
    ∃ ms m, r.marks (cs ++ ['\n']) = ms ++ [m] ∧ m.isComment = false := by
  rw [run_append] at h
  obtain ⟨ms, m, hms, hm⟩ := step_feed h
  refine ⟨r.marks cs ++ ms, m, ?_, hm⟩
  rw [marks_append, marks_cons, hms]
  simp

/-- Whether the reader is in a comment that ends with its line, or has lost its way in one. -/
def inLineComment (r : Reader) : Bool :=
  [Mode.lineComment, .lineQuestion, .lineReturn, .lost].contains r.mode

theorem inLineComment_lineStep (hc : c ≠ '\n') : (lineStep closers c).1.inLineComment = true := by
  rw [lineStep, if_neg hc]
  split
  · rfl
  · dsimp only
    split <;> rfl

theorem inLineComment_step (h : r.inLineComment = true) (hc : c ≠ '\n') :
    (r.step c).1.inLineComment = true := by
  obtain ⟨mode, closers⟩ := r
  cases mode with
  | lineComment => exact inLineComment_lineStep hc
  | lineQuestion =>
      show (if c = '>' then (lost, []) else lineStep closers c).1.inLineComment = true
      split
      · rfl
      · exact inLineComment_lineStep hc
  | lineReturn =>
      show (if c = '\n' then _ else (lost, ([] : List Mark))).1.inLineComment = true
      rw [if_neg hc]
      rfl
  | lost => rfl
  | _ => cases h

theorem inLineComment_run (h : r.inLineComment = true) (hfeed : '\n' ∉ cs) :
    (r.run cs).inLineComment = true := by
  induction cs generalizing r with
  | nil => exact h
  | cons c cs ih =>
      rw [List.mem_cons, not_or] at hfeed
      exact ih (inLineComment_step h (Ne.symm hfeed.1)) hfeed.2

end Reader

end Resettle.Php
