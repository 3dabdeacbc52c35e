import Mathlib.Data.Set.Function
import Resettle.EnvFile

/-!
# Values that are written alike

A quoted value spells its quotes and line breaks with a backslash, but leaves the backslashes that
it has as they are.  So a line break is written as a backslash and a letter would be.  The main
statement is that this is all that two different values can have in common.
-/

namespace Resettle.EnvFile

/-! ## Characters in quotes -/

/-- A line break as a backslash and its letter; every other character as it is. -/
def spelledChar (c : Char) : List Char :=
  if c = '\r' then ['\\', 'r']
  else if c = '\n' then ['\\', 'n']
  else [c]

/-- A text with its line breaks spelled. -/
def spelled (cs : List Char) : List Char :=
  cs.flatMap spelledChar

/-- A quote behind a backslash; every other character as it is. -/
def protectedChar (c : Char) : List Char :=
  if c = '"' then ['\\', '"'] else [c]

def unprotected : List Char → List Char
  | '\\' :: '"' :: rest => '"' :: unprotected rest
  | c :: rest => c :: unprotected rest
  | [] => []

variable {a b : List Char}

theorem quotedChar_eq (c : Char) : quotedChar c = (spelledChar c).flatMap protectedChar := by
  unfold quotedChar spelledChar
  split
  · next hquote => subst hquote; rfl
  · next hquote =>
      split
      · rfl
      · split
        · rfl
        · simp [protectedChar, hquote]

theorem flatMap_quotedChar (cs : List Char) :
    cs.flatMap quotedChar = (spelled cs).flatMap protectedChar := by
  rw [spelled, List.flatMap_assoc, funext quotedChar_eq]

theorem head?_flatMap_protectedChar (cs : List Char) :
    (cs.flatMap protectedChar).head? ≠ some '"' := by
  cases cs with
  | nil => simp
  | cons c cs =>
      rw [List.flatMap_cons, protectedChar]
      split
      · simp
      · next hquote => simpa using hquote

/-- Behind a character no protected text starts with a quote that the character could protect. -/
theorem unprotected_cons (c : Char) (cs : List Char) :
    unprotected (c :: cs.flatMap protectedChar) = c :: unprotected (cs.flatMap protectedChar) := by
  have hhead := head?_flatMap_protectedChar cs
  rw [unprotected]
  rintro rest - hrest
  simp [hrest] at hhead

/-- Protected quotes can be told from all else, a backslash in front of them included. -/
theorem unprotected_flatMap_protectedChar (cs : List Char) :
    unprotected (cs.flatMap protectedChar) = cs := by
  induction cs with
  | nil => rfl
  | cons c cs ih =>
      rw [List.flatMap_cons, protectedChar]
      split
      · next hquote =>
          subst hquote
          exact congrArg _ ih
      · rw [List.singleton_append, unprotected_cons, ih]

theorem flatMap_quotedChar_eq_iff :
    a.flatMap quotedChar = b.flatMap quotedChar ↔ spelled a = spelled b := by
  rw [flatMap_quotedChar, flatMap_quotedChar]
  exact (Function.LeftInverse.injective unprotected_flatMap_protectedChar).eq_iff

/-! ## Values -/

/-- A quoted value starts with a quote, which no value has that is not quoted. -/
theorem writtenValue_ne (ha : a.any needsQuotes = true) (hb : ¬ b.any needsQuotes = true) :
    writtenValue a ≠ writtenValue b := by
  rw [writtenValue, writtenValue, if_pos ha, if_neg hb]
  rintro rfl
  exact hb (by simp [needsQuotes])

theorem writtenValue_eq_iff (a b : List Char) :
    writtenValue a = writtenValue b ↔
      a = b ∨ a.any needsQuotes = true ∧ b.any needsQuotes = true ∧ spelled a = spelled b := by
  constructor
  · intro h
    by_cases ha : a.any needsQuotes = true <;> by_cases hb : b.any needsQuotes = true
    · rw [writtenValue, writtenValue, if_pos ha, if_pos hb, List.cons_inj_right,
        List.append_cancel_right_eq, flatMap_quotedChar_eq_iff] at h
      exact .inr ⟨ha, hb, h⟩
    · exact absurd h (writtenValue_ne ha hb)
    · exact absurd h.symm (writtenValue_ne hb ha)
    · rw [writtenValue, writtenValue, if_neg ha, if_neg hb] at h
      exact .inl h
  · rintro (rfl | ⟨ha, hb, h⟩)
    · rfl
    · rw [writtenValue, writtenValue, if_pos ha, if_pos hb, flatMap_quotedChar_eq_iff.2 h]

theorem spelled_of_unbroken {cs : List Char} (h : ∀ c ∈ cs, isLineEnd c = false) :
    spelled cs = cs := by
  induction cs with
  | nil => rfl
  | cons c cs ih =>
      obtain ⟨hc, hcs⟩ := List.forall_mem_cons.1 h
      have hplain : spelledChar c = [c] := by
        simp only [isLineEnd, Bool.or_eq_false_iff, beq_eq_false_iff_ne] at hc
        rw [spelledChar, if_neg hc.1, if_neg hc.2]
      rw [spelled, List.flatMap_cons, hplain, ← spelled, ih hcs, List.singleton_append]

/-- Values without line breaks are told apart by how they are written. -/
theorem injOn_formatValue :
    Set.InjOn formatValue {value | ∀ c ∈ value.toList, isLineEnd c = false} := by
  intro a ha b hb h
  rw [formatValue, formatValue, String.ofList_inj, writtenValue_eq_iff] at h
  rcases h with h | ⟨-, -, h⟩
  · exact String.toList_inj.1 h
  · rw [spelled_of_unbroken ha, spelled_of_unbroken hb] at h
    exact String.toList_inj.1 h

/-- Two values are written alike exactly if they are the same, or if both are quoted and are the
same once their line breaks are spelled as a backslash and a letter. -/
theorem formatValue_eq_iff (a b : String) :
    formatValue a = formatValue b ↔
      a = b ∨ a.toList.any needsQuotes = true ∧ b.toList.any needsQuotes = true ∧
        spelled a.toList = spelled b.toList := by
  rw [formatValue, formatValue, String.ofList_inj, writtenValue_eq_iff, String.toList_inj]

/-- A line feed is written as a backslash and the letter are that stand in its place. -/
theorem not_injective_formatValue : ¬ Function.Injective formatValue := by
  intro h
  have halike : formatValue "a \n" = formatValue "a \\n" := by decide
  exact absurd (h halike) (by decide)

end Resettle.EnvFile
