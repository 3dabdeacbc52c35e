import Resettle.Proofs.Php.Items
import Resettle.Proofs.Scalar.Literal

/-!
# Literals as values

The literal of a scalar is a string, which is read from quote to quote, or it has plain characters
only.  It is read as one value: behind it the reader is where it was, no comma of the array stands in
it, and no comment.
-/

namespace Resettle.Php

namespace Reader

variable {c : Char} {cs : List Char}

theorem notMem_special_of_isPlainChar (h : isPlainChar c = true) : c ∉ special := by
  have hspecial : special.all (fun d => !isPlainChar d) = true := by decide
  intro hmem
  have hc := List.all_eq_true.1 hspecial c hmem
  rw [h] at hc
  cases hc

/-! ## Strings -/

def quoted : Reader :=
  ⟨.plain, ['\'']⟩

theorem quoted_step (hquote : c ≠ '\'') (hescape : c ≠ '\\') :
    quoted.step c = (quoted, [.inner c]) := by
  show stringStep '\'' [] c = _
  rw [stringStep, if_neg hquote, stringMode, if_neg hescape]
  rfl

/-- A text that stays inside single quotes. -/
structure StaysQuoted (cs : List Char) : Prop where
  run : quoted.run cs = quoted
  marks : quoted.marks cs = cs.map .inner

theorem StaysQuoted.nil : StaysQuoted [] :=
  ⟨rfl, rfl⟩

theorem StaysQuoted.append {ds : List Char} (h : StaysQuoted cs) (h' : StaysQuoted ds) :
    StaysQuoted (cs ++ ds) where
  run := by rw [run_append, h.run, h'.run]
  marks := by rw [marks_append, h.marks, h.run, h'.marks, List.map_append]

theorem StaysQuoted.flatMap {f : Char → List Char} (h : ∀ c ∈ cs, StaysQuoted (f c)) :
    StaysQuoted (cs.flatMap f) := by
  induction cs with
  | nil => exact .nil
  | cons c cs ih =>
      obtain ⟨hc, hcs⟩ := List.forall_mem_cons.1 h
      rw [List.flatMap_cons]
      exact hc.append (ih hcs)

theorem staysQuoted_singleton (hquote : c ≠ '\'') (hescape : c ≠ '\\') : StaysQuoted [c] where
  run := by rw [run_cons, quoted_step hquote hescape]; rfl
  marks := by rw [marks_cons, quoted_step hquote hescape]; rfl

theorem staysQuoted_quoteChar (c : Char) : StaysQuoted (Scalar.quoteChar c) := by
  unfold Scalar.quoteChar
  split
  · exact ⟨rfl, rfl⟩
  · next h =>
      rw [not_or] at h
      exact staysQuoted_singleton h.2 h.1

theorem run_singleQuoted (h : StaysQuoted cs) : start.run ('\'' :: (cs ++ ['\''])) = start := by
  show quoted.run (cs ++ ['\'']) = start
  rw [run_append, h.run]
  rfl

theorem marks_singleQuoted (h : StaysQuoted cs) :
    start.marks ('\'' :: (cs ++ ['\''])) = ('\'' :: (cs ++ ['\''])).map .inner := by
  show .inner '\'' :: quoted.marks (cs ++ ['\'']) = _
  rw [marks_append, h.run, h.marks, List.map_cons, List.map_append]
  rfl

/-! ## Literals -/

/-- A literal leaves the reader where it was, and its marks are all of one kind. -/
theorem read_literal (v : Scalar) :
    start.run v.literal.toList = start ∧
      (start.marks v.literal.toList = v.literal.toList.map .inner ∨
        Plain v.literal.toList ∧ start.marks v.literal.toList = v.literal.toList.map .direct) := by
  by_cases hstring : ∃ s, v = .string s
  · obtain ⟨s, rfl⟩ := hstring
    have hbody : StaysQuoted (s.toList.flatMap Scalar.quoteChar) :=
      .flatMap fun c _ => staysQuoted_quoteChar c
    rw [Scalar.toList_literal_string]
    exact ⟨run_singleQuoted hbody, .inl (marks_singleQuoted hbody)⟩
  · have hplain := Scalar.plain_literal fun s hs => hstring ⟨s, hs⟩
    have hspecial : ∀ c ∈ v.literal.toList, c ∉ special := fun c hc =>
      notMem_special_of_isPlainChar (hplain c hc)
    exact ⟨run_of_notMem hspecial, .inr ⟨hplain, marks_of_notMem hspecial⟩⟩

theorem marks_literal (v : Scalar) :
    ∀ m ∈ start.marks v.literal.toList, m.isComma = false ∧ m.isComment = false := by
  intro m hm
  rcases (read_literal v).2 with h | ⟨hplain, h⟩ <;> rw [h] at hm <;>
    obtain ⟨c, hc, rfl⟩ := List.mem_map.1 hm
  · exact ⟨rfl, rfl⟩
  · refine ⟨?_, rfl⟩
    rw [Bool.eq_false_iff]
    intro hcomma
    obtain rfl : c = ',' := char_of_isComma hcomma
    exact absurd (hplain _ hc) (by decide)

theorem isSpace_eq_false_of_isPlainChar (h : isPlainChar c = true) : isSpace c = false := by
  rw [Bool.eq_false_iff]
  intro hspace
  simp only [isSpace, Bool.or_eq_true, beq_iff_eq] at hspace
  rcases hspace with ((rfl | rfl) | rfl) | rfl <;> exact absurd h (by decide)

theorem codeText_literal (v : Scalar) :
    codeText (start.marks v.literal.toList) = v.literal.toList := by
  have hcode : (start.marks v.literal.toList).map Mark.code = v.literal.toList := by
    rcases (read_literal v).2 with h | ⟨-, h⟩ <;> rw [h, List.map_map] <;> exact List.map_id _
  rw [codeText, hcode]
  by_cases hstring : ∃ s, v = .string s
  · obtain ⟨s, rfl⟩ := hstring
    rw [Scalar.toList_literal_string]
    exact Text.trimmed_eq_self rfl (by rw [← List.cons_append, List.getLast?_concat]) (by decide)
      (by decide)
  · have hplain := Scalar.plain_literal fun s hs => hstring ⟨s, hs⟩
    have hne := v.literal_ne_nil
    exact Text.trimmed_eq_self (List.head?_eq_some_head hne) (List.getLast?_eq_some_getLast hne)
      (isSpace_eq_false_of_isPlainChar (hplain _ (List.head_mem hne)))
      (isSpace_eq_false_of_isPlainChar (hplain _ (List.getLast_mem hne)))

end Reader

end Resettle.Php
