import Mathlib.Data.List.DropRight
import Mathlib.Data.List.Forall2
import Resettle.Php.Summary
import Resettle.Proofs.Text.Trimming

/-!
# What summaries of methods show

The summary of a body in braces has a tag line, the lines of the body from the first to the last
that is not blank, and a closing tag line.  All lines move to the left by the least indentation in
bytes, which is taken off only where a character ends there.  The main statement says that a line
loses nothing but blanks at its ends, that one of the lines comes to stand at the margin, and that
the lines keep their distances where every blank in front of them takes up one byte.
-/

namespace Resettle.Php

variable {n : Nat} {c : Char} {cs lead rest line : List Char} {lines : List (List Char)}

/-! ## Bytes -/

@[simp] theorem byteLength_nil : byteLength [] = 0 :=
  rfl

theorem byteLength_cons (c : Char) (cs : List Char) :
    byteLength (c :: cs) = c.utf8Size + byteLength cs := by
  have hshift : ∀ (ds : List Char) (k : Nat),
      ds.foldl (fun n d => n + d.utf8Size) k = k + byteLength ds := by
    intro ds
    induction ds with
    | nil => exact fun k => rfl
    | cons d ds ih =>
        intro k
        rw [byteLength, List.foldl_cons, List.foldl_cons, ih, ih]
        omega
  rw [byteLength, List.foldl_cons, hshift]
  omega

theorem byteLength_append (cs ds : List Char) :
    byteLength (cs ++ ds) = byteLength cs + byteLength ds := by
  induction cs with
  | nil => simp
  | cons c cs ih => rw [List.cons_append, byteLength_cons, byteLength_cons, ih, Nat.add_assoc]

theorem eq_nil_of_byteLength_eq_zero (h : byteLength cs = 0) : cs = [] := by
  cases cs with
  | nil => rfl
  | cons c cs =>
      have hpos := c.utf8Size_pos
      rw [byteLength_cons] at h
      omega

theorem byteLength_eq_length (h : ∀ c ∈ cs, c.utf8Size = 1) : byteLength cs = cs.length := by
  induction cs with
  | nil => rfl
  | cons c cs ih =>
      rw [List.forall_mem_cons] at h
      rw [byteLength_cons, h.1, ih h.2, List.length_cons, Nat.add_comm]

theorem dropBytes?_append (lead rest : List Char) :
    dropBytes? (byteLength lead) (lead ++ rest) = some rest := by
  induction lead with
  | nil => simp [dropBytes?]
  | cons c lead ih =>
      obtain ⟨k, hk⟩ := Nat.exists_eq_add_of_lt c.utf8Size_pos
      have hbytes : byteLength (c :: lead) = k + byteLength lead + 1 := by
        rw [byteLength_cons]
        omega
      have hsize : c.utf8Size ≤ k + byteLength lead + 1 := by omega
      have hrest : k + byteLength lead + 1 - c.utf8Size = byteLength lead := by omega
      rw [hbytes, List.cons_append, dropBytes?, if_pos hsize, hrest, ih]

/-- Bytes are dropped only up to the end of a character of the text. -/
theorem dropBytes?_eq_some_iff :
    dropBytes? n cs = some rest ↔ ∃ lead, cs = lead ++ rest ∧ byteLength lead = n := by
  constructor
  · intro h
    induction cs generalizing n with
    | nil =>
        cases n with
        | zero => exact ⟨[], by simpa [dropBytes?] using h, rfl⟩
        | succ n => simp [dropBytes?] at h
    | cons c cs ih =>
        cases n with
        | zero => exact ⟨[], by simpa [dropBytes?] using h, rfl⟩
        | succ n =>
            obtain ⟨hsize, hdrop⟩ := Option.ite_none_right_eq_some.1 h
            obtain ⟨lead, rfl, hlead⟩ := ih hdrop
            refine ⟨c :: lead, rfl, ?_⟩
            rw [byteLength_cons, hlead]
            omega
  · rintro ⟨lead, rfl, rfl⟩
    exact dropBytes?_append lead rest

/-! ## A line moved to the left -/

/-- What is left of a line that lost blanks in front and all blanks at its end. -/
structure Trims (line kept : List Char) : Prop where
  cut : ∃ lead trail, line = lead ++ (kept ++ trail) ∧ (∀ c ∈ lead, Text.isBlank c = true) ∧
    ∀ c ∈ trail, Text.isBlank c = true
  tight : ∀ c, kept.getLast? = some c → Text.isBlank c = false

/-- A line that is moved by some bytes is cut behind them if a character ends there, and is trimmed
otherwise; nothing but blanks gets lost in either case. -/
structure Outdented (n : Nat) (line kept : List Char) : Prop extends Trims line kept where
  moved : (∃ lead rest, line = lead ++ rest ∧ byteLength lead = n ∧ kept = Text.trimEnd rest) ∨
    (∀ lead rest, line = lead ++ rest → byteLength lead ≠ n) ∧ kept = Text.trim line

theorem Trims.trim_eq {kept : List Char} (h : Trims line kept) :
    Text.trim kept = Text.trim line := by
  obtain ⟨lead, trail, rfl, hlead, htrail⟩ := h.cut
  exact (Text.trim_around hlead htrail kept).symm

theorem Trims.mem {kept : List Char} (h : Trims line kept) (hc : c ∈ kept) : c ∈ line := by
  obtain ⟨lead, trail, rfl, -, -⟩ := h.cut
  exact List.mem_append_right lead (List.mem_append_left trail hc)

theorem trims_trimEnd (hlead : ∀ c ∈ lead, Text.isBlank c = true) (rest : List Char) :
    Trims (lead ++ rest) (Text.trimEnd rest) := by
  obtain ⟨trail, hcut, htrail, htight⟩ := Text.exists_dropWhileEnd Text.isBlank rest
  exact ⟨⟨lead, trail, congrArg (lead ++ ·) hcut, hlead, htrail⟩, htight⟩

theorem trims_trim (line : List Char) : Trims line (Text.trim line) := by
  have hlead : ∀ c ∈ line.takeWhile Text.isBlank, Text.isBlank c = true := fun c hc =>
    List.mem_takeWhile_imp hc
  have h := trims_trimEnd hlead (line.dropWhile Text.isBlank)
  rwa [List.takeWhile_append_dropWhile] at h

/-- What does not reach beyond the indentation of a line is blank. -/
theorem isBlank_of_byteLength_le (hcut : line = lead ++ rest)
    (h : byteLength lead ≤ indentation line) : ∀ c ∈ lead, Text.isBlank c = true := by
  have hwhole : line.takeWhile Text.isBlank ++ line.dropWhile Text.isBlank = lead ++ rest := by
    rw [List.takeWhile_append_dropWhile, hcut]
  -- Either the blanks end within `lead`, which then has no bytes left for more, or behind it.
  rcases List.append_eq_append_iff.1 hwhole with ⟨more, hmore, -⟩ | ⟨more, hmore, -⟩
  · have hnone : more = [] := by
      rw [indentation, hmore, byteLength_append] at h
      exact eq_nil_of_byteLength_eq_zero (by omega)
    rw [hmore, hnone, List.append_nil]
    exact fun c hc => List.mem_takeWhile_imp hc
  · intro c hc
    have hmem : c ∈ line.takeWhile Text.isBlank := hmore ▸ List.mem_append_left more hc
    exact List.mem_takeWhile_imp hmem

theorem outdented_outdent (h : isBlankLine line = true ∨ n ≤ indentation line) :
    Outdented n line (outdent n line) := by
  unfold outdent
  cases hdrop : dropBytes? n line with
  | some rest =>
      obtain ⟨lead, rfl, rfl⟩ := dropBytes?_eq_some_iff.1 hdrop
      have hlead : ∀ c ∈ lead, Text.isBlank c = true := by
        rcases h with hblank | hle
        · exact fun c hc => List.all_eq_true.1 hblank c (List.mem_append_left rest hc)
        · exact isBlank_of_byteLength_le rfl hle
      exact ⟨trims_trimEnd hlead rest, .inl ⟨lead, rest, rfl, rfl, rfl⟩⟩
  | none =>
      -- The cut would be inside of a character, or behind a blank line that is too short.
      refine ⟨trims_trim line, .inr ⟨fun lead rest hcut hbytes => ?_, rfl⟩⟩
      rw [dropBytes?_eq_some_iff.2 ⟨lead, hcut, hbytes⟩] at hdrop
      cases hdrop

/-- A line that is moved by its own indentation comes to stand at the margin. -/
theorem head?_outdent_indentation (h : isBlankLine line = false) :
    ∃ c, (outdent (indentation line) line).head? = some c ∧ Text.isBlank c = false := by
  have hdrop : dropBytes? (indentation line) line = some (line.dropWhile Text.isBlank) :=
    dropBytes?_eq_some_iff.2 ⟨_, List.takeWhile_append_dropWhile.symm, rfl⟩
  have hdark : ∃ c ∈ line, Text.isBlank c = false := by simpa [isBlankLine] using h
  obtain ⟨c, more, hmore, hc⟩ := Text.exists_dropWhile_eq_cons hdark
  refine ⟨c, ?_, hc⟩
  rw [outdent, hdrop, hmore]
  simp only [Text.trimEnd, Text.dropWhileEnd_cons_of_neg hc, List.head?_cons]

/-- Where each blank in front of a line takes up one byte, as many of them go as there are bytes. -/
theorem outdent_eq_drop (hbytes : ∀ c ∈ line.takeWhile Text.isBlank, c.utf8Size = 1)
    (hn : n ≤ indentation line) :
    n ≤ (line.takeWhile Text.isBlank).length ∧ outdent n line = Text.trimEnd (line.drop n) := by
  rw [indentation, byteLength_eq_length hbytes] at hn
  -- The characters that go are blanks, so that they are as many as their bytes.
  have htake : line.take n = (line.takeWhile Text.isBlank).take n := by
    conv_lhs => rw [← List.takeWhile_append_dropWhile (p := Text.isBlank) (l := line)]
    exact List.take_append_of_le_length hn
  have hlength : byteLength (line.take n) = n := by
    rw [htake, byteLength_eq_length fun c hc => hbytes c (List.mem_of_mem_take hc),
      List.length_take, Nat.min_eq_left hn]
  have hdrop : dropBytes? n line = some (line.drop n) :=
    dropBytes?_eq_some_iff.2 ⟨line.take n, (List.take_append_drop n line).symm, hlength⟩
  exact ⟨hn, by rw [outdent, hdrop]⟩

/-! ## The lines that are shown -/

/-- The stretch of some lines from the first to the last that is not blank. -/
structure IsCore (lines core : List (List Char)) : Prop where
  cut : ∃ front back, lines = front ++ (core ++ back) ∧
    (∀ line ∈ front, isBlankLine line = true) ∧ ∀ line ∈ back, isBlankLine line = true
  first : ∃ line, core.head? = some line ∧ isBlankLine line = false
  last : ∃ line, core.getLast? = some line ∧ isBlankLine line = false

theorem coreLines_eq_rdropWhile (cs : List Char) :
    coreLines cs = ((Text.lines cs).dropWhile isBlankLine).rdropWhile isBlankLine :=
  rfl

theorem coreLines_of_blank (h : ∀ line ∈ Text.lines cs, isBlankLine line = true) :
    coreLines cs = [] := by
  rw [coreLines_eq_rdropWhile, List.dropWhile_eq_nil_iff.2 h, List.rdropWhile_nil]

theorem isCore_coreLines (h : ∃ line ∈ Text.lines cs, isBlankLine line = false) :
    IsCore (Text.lines cs) (coreLines cs) := by
  rw [coreLines_eq_rdropWhile]
  have hfront := List.takeWhile_append_dropWhile (p := isBlankLine) (l := Text.lines cs)
  obtain ⟨first, more, hmore, hfirst⟩ := Text.exists_dropWhile_eq_cons h
  have hback := List.rdropWhile_append_rtakeWhile (p := isBlankLine) (l := first :: more)
  rw [hmore] at hfront ⊢
  have hne : (first :: more).rdropWhile isBlankLine ≠ [] := by
    intro hnil
    have hblank := List.rdropWhile_eq_nil_iff.1 hnil first List.mem_cons_self
    exact Bool.eq_false_iff.1 hfirst hblank
  refine ⟨⟨(Text.lines cs).takeWhile isBlankLine, (first :: more).rtakeWhile isBlankLine, ?_,
    fun line hline => List.mem_takeWhile_imp hline,
    fun line hline => List.mem_rtakeWhile_imp hline⟩, ⟨first, ?_, hfirst⟩, ?_⟩
  · rw [hback, hfront]
  · obtain ⟨line, rest, hcore⟩ := List.exists_cons_of_ne_nil hne
    rw [hcore, List.cons_append] at hback
    rw [hcore, (List.cons.inj hback).1, List.head?_cons]
  · refine ⟨_, List.getLast?_eq_some_getLast hne, ?_⟩
    exact Bool.eq_false_iff.2 (List.rdropWhile_last_not isBlankLine _ hne)

/-- The indentation that lines share is the one of a line that is not blank, and no such line is
indented less. -/
theorem commonIndentation_spec (h : ∃ line ∈ lines, isBlankLine line = false) :
    (∃ line ∈ lines, isBlankLine line = false ∧ indentation line = commonIndentation lines) ∧
      ∀ line ∈ lines, isBlankLine line = false → commonIndentation lines ≤ indentation line := by
  have hmem : ∀ k, k ∈ (lines.filter fun line => !isBlankLine line).map indentation ↔
      ∃ line ∈ lines, isBlankLine line = false ∧ indentation line = k := by
    intro k
    simp [and_assoc]
  obtain ⟨line, hline, hblank⟩ := h
  unfold commonIndentation
  cases hmin : ((lines.filter fun line => !isBlankLine line).map indentation).min? with
  | none =>
      have hnone := List.min?_eq_none_iff.1 hmin
      have hthere := (hmem _).2 ⟨line, hline, hblank, rfl⟩
      rw [hnone] at hthere
      cases hthere
  | some k =>
      obtain ⟨hk, hleast⟩ := List.min?_eq_some_iff.1 hmin
      exact ⟨(hmem k).1 hk, fun line hline hblank =>
        hleast _ ((hmem _).2 ⟨line, hline, hblank, rfl⟩)⟩

theorem outdented_of_mem (hline : line ∈ lines) :
    Outdented (commonIndentation lines) line (outdent (commonIndentation lines) line) := by
  cases hblank : isBlankLine line with
  | true => exact outdented_outdent (.inl hblank)
  | false =>
      have hle := (commonIndentation_spec ⟨line, hline, hblank⟩).2 line hline hblank
      exact outdented_outdent (.inr hle)

/-- How lines are shown by what is kept of them when they move to the left by `n` bytes. -/
structure Shows (lines : List (List Char)) (n : Nat) (kept : List (List Char)) : Prop where
  outdented : List.Forall₂ (Outdented n) lines kept
  trimmed : kept.map Text.trim = lines.map Text.trim
  atMargin : ∃ line ∈ kept, ∃ c, line.head? = some c ∧ Text.isBlank c = false
  evenly : (∀ line ∈ lines, isBlankLine line = false →
      ∀ c ∈ line.takeWhile Text.isBlank, c.utf8Size = 1) →
    List.Forall₂ (fun line shown => isBlankLine line = false →
      n ≤ (line.takeWhile Text.isBlank).length ∧ shown = Text.trimEnd (line.drop n)) lines kept

theorem shows_outdent (h : ∃ line ∈ lines, isBlankLine line = false) :
    Shows lines (commonIndentation lines) (lines.map (outdent (commonIndentation lines))) := by
  obtain ⟨⟨least, hleast, hblank, hsame⟩, hle⟩ := commonIndentation_spec h
  refine ⟨?_, ?_, ?_, ?_⟩
  · rw [List.forall₂_map_right_iff, List.forall₂_same]
    exact fun line hline => outdented_of_mem hline
  · rw [List.map_map]
    exact List.map_congr_left fun line hline => (outdented_of_mem hline).trim_eq
  · refine ⟨_, List.mem_map_of_mem hleast, ?_⟩
    rw [← hsame]
    exact head?_outdent_indentation hblank
  · intro hbytes
    rw [List.forall₂_map_right_iff, List.forall₂_same]
    intro line hline hblank
    exact outdent_eq_drop (hbytes line hline hblank) (hle line hline hblank)

/-! ## Snippets -/

def snippetLines (kept : List (List Char)) : List (List Char) :=
  "<?php".toList :: (kept ++ ["?>".toList])

theorem lines_join_snippetLines (h : ∀ line ∈ lines, '\n' ∉ line) :
    let kept := lines.map (outdent (commonIndentation lines))
    Text.lines (Text.join '\n' (snippetLines kept)) = snippetLines kept := by
  intro kept
  have hkept : ∀ shown ∈ kept, '\n' ∉ shown ∧ shown.getLast? ≠ some '\r' := by
    intro shown hshown
    obtain ⟨line, hline, rfl⟩ := List.mem_map.1 hshown
    have houtdented := outdented_of_mem hline
    refine ⟨fun hfeed => h line hline (houtdented.mem hfeed), fun hreturn => ?_⟩
    exact absurd (houtdented.tight '\r' hreturn) (by decide)
  exact Text.lines_join (List.forall_mem_cons.2 ⟨by decide, hkept⟩) (by decide) (by decide)

theorem insideBraces_braces (inner : List Char) :
    insideBraces ('{' :: (inner ++ ['}'])) = inner := by
  have htrim : Text.trim ('{' :: (inner ++ ['}'])) = '{' :: (inner ++ ['}']) :=
    Text.trimmed_eq_self rfl (by rw [← List.cons_append, List.getLast?_concat]) (by decide)
      (by decide)
  rw [insideBraces, htrim]
  simp

theorem summary_eq_append (cs : List Char) :
    let lines := coreLines (insideBraces cs)
    summary cs = "<?php\n".toList ++
      Text.join '\n' (lines.map (outdent (commonIndentation lines))) ++ "\n?>".toList :=
  rfl

theorem summary_of_blank (h : ∀ line ∈ Text.lines (insideBraces cs), isBlankLine line = true) :
    summary cs = "<?php\n\n?>".toList := by
  rw [summary_eq_append, coreLines_of_blank h]
  rfl

theorem summary_eq_join (hne : coreLines (insideBraces cs) ≠ []) :
    let lines := coreLines (insideBraces cs)
    summary cs =
      Text.join '\n' (snippetLines (lines.map (outdent (commonIndentation lines)))) := by
  intro lines
  rw [snippetLines, Text.join_cons (by simp), Text.join_concat (by simpa using hne),
    summary_eq_append]
  simp [lines]

/-- The summary of a body in braces with a line that is not blank shows the lines from the first to
the last such line between its tag lines; without such a line, and without a body, it is empty. -/
theorem summary_shows_core (inner : List Char) :
    let snippet := summary ('{' :: (inner ++ ['}']))
    ((∃ line ∈ Text.lines inner, isBlankLine line = false) →
      ∃ core n kept, IsCore (Text.lines inner) core ∧ Shows core n kept ∧
        snippet = Text.join '\n' (snippetLines kept) ∧ Text.lines snippet = snippetLines kept) ∧
    ((∀ line ∈ Text.lines inner, isBlankLine line = true) → snippet = "<?php\n\n?>".toList) ∧
    summary [] = "<?php\n\n?>".toList := by
  intro snippet
  refine ⟨fun h => ?_, fun h => ?_, by decide⟩
  · have hcore := isCore_coreLines h
    obtain ⟨first, hfirst, hblank⟩ := hcore.first
    have hmem : first ∈ coreLines inner := List.mem_of_head? hfirst
    have hjoin : snippet = Text.join '\n' (snippetLines
        ((coreLines inner).map (outdent (commonIndentation (coreLines inner))))) := by
      have hsummary := @summary_eq_join ('{' :: (inner ++ ['}']))
      rw [insideBraces_braces] at hsummary
      exact hsummary (List.ne_nil_of_mem hmem)
    have hfeed : ∀ line ∈ coreLines inner, '\n' ∉ line := by
      obtain ⟨front, back, hcut, -, -⟩ := hcore.cut
      intro line hline
      have hshown : line ∈ Text.lines inner := by
        rw [hcut]
        exact List.mem_append_right front (List.mem_append_left back hline)
      exact Text.notMem_of_mem_lines hshown
    refine ⟨_, _, _, hcore, shows_outdent ⟨first, hmem, hblank⟩, hjoin, ?_⟩
    rw [hjoin]
    exact lines_join_snippetLines hfeed
  · exact summary_of_blank (by rwa [insideBraces_braces])

/-- A line that would be cut inside of a character is trimmed. -/
example : summary "\x7b\n a();\n\n\u3000  b(); \n   c();\x7d".toList =
    "<?php\na();\n\nb();\n  c();\n?>".toList := by
  decide

end Resettle.Php
