import Resettle.Php.Lexer

/-!
# Brackets in PHP source

The lexemes of a source that are code, strings and comments being none of it, and the matching of
square brackets among them.  The scanner's steps are taken as far as they go, so that what follows
a bracket can be looked at even if the source breaks off behind it.
-/

namespace Resettle.Php

namespace Lexer

/-- The lexemes that are read in code, up to the place where the scanner ends or sticks. -/
def codeLexemes : Nat → List Frame → Mode → List Char → List Lexeme
  | 0, _, _, _ => []
  | fuel + 1, frames, .template closing lineStart, cs =>
      match templateStep frames closing lineStart cs with
      | .emit _ frames next rest => codeLexemes fuel frames next rest
      | .skip next rest => codeLexemes fuel frames next rest
      | .stuck => []
  | fuel + 1, frames, .code gap operand, cs =>
      match cs.dropWhile isBlank with
      | [] => []
      | code =>
          match codeStep frames gap operand code with
          | .emit token frames next rest =>
              ⟨token, gap, code, rest⟩ :: codeLexemes fuel frames next rest
          | .skip next rest => codeLexemes fuel frames next rest
          | .stuck => []

/-- A lexeme of code is read by a step of the scanner from its first character on. -/
theorem exists_codeStep_of_mem {fuel : Nat} {frames : List Frame} {mode : Mode} {cs : List Char}
    {l : Lexeme} (h : l ∈ codeLexemes fuel frames mode cs) :
    ∃ frames gap operand frames' next,
      codeStep frames gap operand l.start = .emit l.token frames' next l.stop := by
  fun_induction codeLexemes fuel frames mode cs with
  | case1 | case4 | case5 | case8 => cases h
  | case2 _ _ _ _ _ _ _ _ _ _ ih => exact ih h
  | case3 _ _ _ _ _ _ _ _ ih => exact ih h
  | case6 _ _ _ _ _ _ _ _ _ _ hstep ih =>
      rcases List.mem_cons.1 h with rfl | h
      · exact ⟨_, _, _, _, _, hstep⟩
      · exact ih h
  | case7 _ _ _ _ _ _ _ _ _ ih => exact ih h

theorem codeStep_bracket (frames : List Frame) (gap operand : Bool) (rest : List Char) :
    codeStep frames gap operand (']' :: rest) = codeToken frames (.symbol "]") rest := by
  rfl

end Lexer

/-- The lexemes of code in a source file, as far as the scanner gets. -/
def codeLexemes (source : List Char) : List Lexeme :=
  match Lexer.afterOpeningTag? source with
  | some code => Lexer.codeLexemes (code.length + 1) [] (.code false false) code
  | none => []

/-- Where code goes on with a closing bracket, its lexeme is the bracket. -/
theorem token_of_start {source : List Char} {l : Lexeme} {rest : List Char}
    (h : l ∈ codeLexemes source) (hstart : l.start = ']' :: rest) : l.token = .symbol "]" := by
  unfold codeLexemes at h
  split at h
  · obtain ⟨frames, gap, operand, frames', next, hstep⟩ := Lexer.exists_codeStep_of_mem h
    rw [hstart, Lexer.codeStep_bracket] at hstep
    unfold Lexer.codeToken at hstep
    injection hstep with htoken
    exact htoken.symm
  · cases h

/-! ## Matching brackets -/

/-- Whether a token opens a bracket, one of an attribute included. -/
def Token.opensBracket (t : Token) : Bool :=
  t.isSymbol "[" || t.isSymbol "#["

def Token.closesBracket (t : Token) : Bool :=
  t.isSymbol "]"

/-- The lexemes behind an opening bracket that stand in it and in no bracket inside of it; the one
that closes it is the last of them.  The number counts the brackets that are open inside of it. -/
def directlyInside : Nat → List Lexeme → List Lexeme
  | _, [] => []
  | depth, l :: ls =>
      if l.token.closesBracket then
        match depth with
        | 0 => [l]
        | depth + 1 => directlyInside depth ls
      else
        let more := directlyInside (if l.token.opensBracket then depth + 1 else depth) ls
        if depth = 0 then l :: more else more

def closing? : Nat → List Lexeme → Option Lexeme
  | _, [] => none
  | depth, l :: ls =>
      if l.token.closesBracket then
        match depth with
        | 0 => some l
        | depth + 1 => closing? depth ls
      else closing? (if l.token.opensBracket then depth + 1 else depth) ls

theorem mem_of_mem_directlyInside {depth : Nat} {ls : List Lexeme} {l : Lexeme}
    (h : l ∈ directlyInside depth ls) : l ∈ ls := by
  induction ls generalizing depth with
  | nil => cases h
  | cons l' ls ih =>
      unfold directlyInside at h
      split at h
      · cases depth with
        | zero => exact List.mem_cons.2 (.inl (List.mem_singleton.1 h))
        | succ depth => exact List.mem_cons_of_mem _ (ih h)
      · dsimp only at h
        split at h
        · rcases List.mem_cons.1 h with rfl | h
          · exact List.mem_cons_self
          · exact List.mem_cons_of_mem _ (ih h)
        · exact List.mem_cons_of_mem _ (ih h)

/-- The bracket is closed by the closing bracket directly inside of it. -/
theorem closing?_eq_some_iff {depth : Nat} {ls : List Lexeme} {l : Lexeme} :
    closing? depth ls = some l ↔ l ∈ directlyInside depth ls ∧ l.token.closesBracket = true := by
  induction ls generalizing depth with
  | nil => simp [closing?, directlyInside]
  | cons l' ls ih =>
      unfold closing? directlyInside
      by_cases hclose : l'.token.closesBracket = true
      · rw [if_pos hclose, if_pos hclose]
        cases depth with
        | zero =>
            simp only [Option.some.injEq, List.mem_singleton]
            constructor
            · rintro rfl
              exact ⟨rfl, hclose⟩
            · exact fun h => h.1.symm
        | succ depth => exact ih
      · rw [if_neg hclose, if_neg hclose, ih]
        dsimp only
        by_cases hdepth : depth = 0
        · rw [if_pos hdepth, List.mem_cons]
          constructor
          · exact fun h => ⟨.inr h.1, h.2⟩
          · rintro ⟨rfl | h, hl⟩
            · exact absurd hl hclose
            · exact ⟨h, hl⟩
        · rw [if_neg hdepth]

end Resettle.Php
