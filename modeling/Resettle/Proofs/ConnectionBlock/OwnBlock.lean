import Resettle.Proofs.ConnectionBlock.Entries
import Resettle.Proofs.Php.Brackets
import Resettle.Proofs.Text.Pieces

/-!
# Edits of a driver's own block

A patch takes the text up to the first line that starts with a closing bracket and a comma for the
body of the block.  The lemmas relate that line to the bracket which closes the block: the edits
stay inside of the block, and new entries stand directly in it, just if the two are the same.
-/

namespace Resettle.ConnectionBlock

open Php (Lexeme codeLexemes closing? directlyInside)

/-! ## Cuts -/

def Cut.inner (c : Cut) : List Char :=
  c.body ++ c.footer ++ c.after

theorem cut?_eq_some_iff {content driver : List Char} {c : Cut} :
    cut? content driver = some c ↔
      Text.search (header? driver) content = some (c.before, c.header, c.inner) ∧
        Text.search footer? c.inner = some (c.body, c.footer, c.after) := by
  have hinner : ∀ {inner body footer after : List Char},
      Text.search footer? inner = some (body, footer, after) → inner = body ++ footer ++ after := by
    intro inner body footer after h
    obtain ⟨rest, rfl, hfooter⟩ := Text.search_eq_some h
    obtain ⟨gap, -, -, rfl⟩ := footer?_eq_some_iff.1 hfooter
    exact (List.append_assoc _ _ _).symm
  simp only [cut?, Option.bind_eq_bind, Option.bind_eq_some_iff, Option.pure_def,
    Option.some.injEq, Prod.exists]
  constructor
  · rintro ⟨before, header, inner, hheader, body, footer, after, hfooter, rfl⟩
    obtain rfl := hinner hfooter
    exact ⟨hheader, hfooter⟩
  · rintro ⟨hheader, hfooter⟩
    exact ⟨_, _, _, hheader, _, _, _, hfooter, rfl⟩

/-- The parts of a cut make up the configuration, and its footer is a closing bracket on a line of
its own. -/
theorem cut?_eq_some {content driver : List Char} {c : Cut} (h : cut? content driver = some c) :
    content = c.before ++ c.header ++ c.inner ∧
      ∃ gap, (∀ b ∈ gap, Text.isBlank b = true) ∧ c.footer = '\n' :: (gap ++ [']', ',']) := by
  obtain ⟨hheader, hfooter⟩ := cut?_eq_some_iff.1 h
  obtain ⟨_, hcontent, hread⟩ := Text.search_eq_some hheader
  obtain ⟨_, _, _, hrest⟩ := header?_eq_some_iff.1 hread
  obtain ⟨_, _, hread'⟩ := Text.search_eq_some hfooter
  obtain ⟨gap, hgap, hline, _⟩ := footer?_eq_some_iff.1 hread'
  refine ⟨?_, gap, hgap, hline⟩
  rw [hcontent, hrest, List.append_assoc]

theorem trimStart_footer {c : Cut} {gap : List Char} (hgap : ∀ b ∈ gap, Text.isBlank b = true)
    (hfooter : c.footer = '\n' :: (gap ++ [']', ','])) :
    Text.trimStart (c.footer ++ c.after) = ']' :: ',' :: c.after := by
  refine trimStart_eq_iff.2 ⟨'\n' :: gap, ?_, by simp [hfooter], ?_⟩
  · intro b hb
    rcases List.mem_cons.1 hb with rfl | hb
    · decide
    · exact hgap b hb
  · intro b hb
    obtain rfl : ']' = b := by simpa using hb
    decide

theorem patch?_of_cut {content driver : String} {c : Cut}
    (h : cut? content.toList driver.toList = some c) (updates : List (String × Scalar)) :
    patch? content driver updates =
      some (String.ofList (c.before ++ c.header ++ setEntries c.body updates ++ c.footer ++
        c.after)) := by
  unfold patch?
  rw [h]
  rfl

theorem setEntries_append_singleton (body : List Char) (updates : List (String × Scalar))
    (u : String × Scalar) :
    setEntries body (updates ++ [u]) =
      setEntry (entryIndent body) (setEntries body updates) u.1.toList u.2.literal.toList := by
  unfold setEntries
  rw [List.foldl_append]
  rfl

theorem entryIndent_spec (body : List Char) :
    (∀ c ∈ entryIndent body, Text.isBlank c = true) ∧ '\n' ∉ entryIndent body := by
  unfold entryIndent
  split
  · next line hline =>
      refine ⟨fun c hc => List.mem_takeWhile_imp hc, fun hmem => ?_⟩
      exact Text.notMem_of_mem_lines (List.mem_of_find?_eq_some hline)
        ((List.takeWhile_prefix _).subset hmem)
  · unfold defaultIndent
    refine ⟨fun c hc => ?_, fun hmem => ?_⟩
    · rw [List.eq_of_mem_replicate hc]
      decide
    · have := List.eq_of_mem_replicate hmem
      contradiction

/-! ## What a patch does -/

/-- An update exchanges the value behind a lead of its key. -/
def ReplacesValue (u : String × Scalar) (old new : List Char) : Prop :=
  ∃ front lead value behind, IsLead u.1.toList lead ∧ old = front ++ lead ++ (value ++ behind) ∧
    new = front ++ lead ++ (u.2.literal.toList ++ ',' :: behind)

def AddsEntry (u : String × Scalar) (place old new : List Char) : Prop :=
  ∃ front indent, (∀ c ∈ indent, Text.isBlank c = true) ∧ '\n' ∉ indent ∧ old = front ++ place ∧
    new = front ++ ('\n' :: entryLine indent u.1.toList u.2.literal.toList ++ place)

/-- Every patch changes a configuration only between the opening bracket of the driver's block
and the bracket that closes it, and every update exchanges a value or puts an entry in front of a
place that stands directly in the block. -/
structure EditsOwnBlock (content driver : String) (c : Cut) (ls : List Lexeme) : Prop where
  confined : ∀ updates out, patch? content driver updates = some out →
    ∃ l inside inside', closing? 0 ls = some l ∧
      content.toList = c.before ++ c.header ++ inside ++ l.start ∧
      out.toList = c.before ++ c.header ++ inside' ++ l.start
  entered : ∀ updates u old new, patch? content driver updates = some old →
    patch? content driver (updates ++ [u]) = some new →
    ReplacesValue u old.toList new.toList ∨
      ∃ place, AddsEntry u place old.toList new.toList ∧
        ∃ l ∈ directlyInside 0 ls, l.start = Text.trimStart place

/-- Whether a lexeme is the quoted driver of a block's header. -/
def isHeaderKey (c : Cut) (l : Lexeme) : Bool :=
  match l.token with
  | .text _ => l.start == c.header ++ c.inner
  | _ => false

/-- Whether a lexeme is the opening bracket of a block's header. -/
def isHeaderBracket (c : Cut) (l : Lexeme) : Bool :=
  l.token.isSymbol "[" && l.stop == c.inner

/-- The lexemes behind the header of a block, if the header is code. -/
def behindHeader? (c : Cut) (ls : List Lexeme) : Option (List Lexeme) :=
  match (ls.dropWhile fun l => !isHeaderKey c l).dropWhile fun l => !isHeaderBracket c l with
  | [] => none
  | _ :: behind => some behind

theorem mem_of_behindHeader? {c : Cut} {ls behind : List Lexeme} {l : Lexeme}
    (h : behindHeader? c ls = some behind) (hl : l ∈ behind) : l ∈ ls := by
  unfold behindHeader? at h
  split at h
  · cases h
  · next bracket rest hcut =>
      cases h
      have hsuffix := (List.dropWhile_suffix (l := ls.dropWhile fun l => !isHeaderKey c l)
        fun l => !isHeaderBracket c l).trans (List.dropWhile_suffix _)
      rw [hcut] at hsuffix
      exact hsuffix.subset (List.mem_cons_of_mem _ hl)

/-! ## One entry in front of a place -/

/-- A line that stands on either side of a shorter text, before and behind it, leaves no room for
that text. -/
theorem eq_nil_of_line {between line line' : List Char} (hline : '\n' ∉ line)
    (hshort : between.length ≤ line.length)
    (h : '\n' :: line ++ between = between ++ '\n' :: line') : between = [] := by
  cases between with
  | nil => rfl
  | cons b between =>
      simp only [List.cons_append, List.cons.injEq] at h
      obtain ⟨rfl, h⟩ := h
      rcases List.append_eq_append_iff.1 h with ⟨extra, hover, -⟩ | ⟨extra, rfl, hover⟩
      · have hlength := congrArg List.length hover
        rw [List.length_append] at hlength
        rw [List.length_cons] at hshort
        omega
      · cases extra with
        | nil =>
            rw [List.append_nil, List.length_cons] at hshort
            omega
        | cons o extra =>
            obtain ⟨rfl, _⟩ := List.cons.inj hover
            exact absurd (List.mem_append_right _ List.mem_cons_self) hline

/-- Where a line was put into a text tells the place, if the line is longer than the text. -/
theorem place_unique (front front' : List Char) {place place' line line' : List Char}
    (hline : '\n' ∉ line) (hline' : '\n' ∉ line') (hold : front ++ place = front' ++ place')
    (hnew : front ++ ('\n' :: line ++ place) = front' ++ ('\n' :: line' ++ place'))
    (hlong : (front ++ place).length ≤ line.length) : place = place' := by
  have hsame : line.length = line'.length := by
    have hold' := congrArg List.length hold
    have hnew' := congrArg List.length hnew
    simp only [List.length_append, List.length_cons] at hold' hnew'
    omega
  rw [List.length_append] at hlong
  rcases List.append_eq_append_iff.1 hold with ⟨z, rfl, rfl⟩ | ⟨z, rfl, rfl⟩
  · rw [List.append_assoc, List.append_cancel_left_eq, ← List.append_assoc, ← List.append_assoc,
      List.append_cancel_right_eq] at hnew
    rw [List.length_append] at hlong
    rw [eq_nil_of_line hline (by omega) hnew, List.nil_append]
  · rw [List.append_assoc, List.append_cancel_left_eq, ← List.append_assoc, ← List.append_assoc,
      List.append_cancel_right_eq] at hnew
    rw [List.length_append] at hlong
    rw [eq_nil_of_line hline' (by omega) hnew.symm, List.nil_append]

/-! ## Patches of the own block -/

theorem IsLead.length_le {key lead : List Char} (h : IsLead key lead) :
    key.length ≤ lead.length := by
  obtain ⟨q, q', gap, gap', -, -, -, -, rfl⟩ := h
  simp only [List.length_cons, List.length_append]
  omega

theorem search_entryAt?_eq_none_of_length {key body : List Char}
    (h : body.length < key.length) : Text.search (entryAt? key) body = none := by
  rw [Option.eq_none_iff_forall_ne_some]
  rintro ⟨front, lead, comment, behind⟩ hfound
  obtain ⟨hlead, -, old, hbody⟩ := setEntry_of_search hfound [] []
  have hlength := congrArg List.length hbody
  have hkey := hlead.length_le
  simp only [List.length_append] at hlength
  omega

variable {content driver : String} {c : Cut} {ls : List Lexeme}

/-- A new entry under a key that is longer than the configuration shows where entries go. -/
theorem exists_closing_of_editsOwnBlock (hcut : cut? content.toList driver.toList = some c)
    (hcode : behindHeader? c (codeLexemes content.toList) = some ls)
    (h : EditsOwnBlock content driver c ls) :
    ∃ l, closing? 0 ls = some l ∧ l.start = ']' :: ',' :: c.after := by
  obtain ⟨hcontent, gap, hgap, hfooter⟩ := cut?_eq_some hcut
  let key := String.ofList (List.replicate (content.toList.length + 1) 'k')
  have hlength : key.toList.length = content.toList.length + 1 := by simp [key]
  have hnone : Text.search (entryAt? key.toList) (setEntries c.body []) = none := by
    refine search_entryAt?_eq_none_of_length ?_
    have hparts := congrArg List.length hcontent
    simp only [Cut.inner, List.length_append] at hparts
    change c.body.length < _
    omega
  have hold : patch? content driver [] = some content := by
    rw [patch?_of_cut hcut, ← String.ofList_toList (s := content), hcontent]
    simp [Cut.inner, setEntries]
  have hnew := patch?_of_cut hcut ([] ++ [(key, Scalar.null)])
  rw [setEntries_append_singleton, setEntry_of_search_none hnone] at hnew
  rcases h.entered [] _ _ _ hold hnew with ⟨front, lead, value, behind, hlead, hparts, -⟩ |
    ⟨place, ⟨front, indent, hblank, hfeed, hplace, hplace'⟩, l, hl, hstart⟩
  · have hkey := hlead.length_le
    have hparts := congrArg List.length hparts
    simp only [List.length_append] at hparts hkey
    omega
  · have notMem_entryLine : ∀ {indent : List Char}, '\n' ∉ indent →
        '\n' ∉ entryLine indent key.toList Scalar.null.literal.toList := by
      intro indent hindent
      unfold entryLine
      simp [hindent, key, Scalar.literal]
    have hhere : place = c.footer ++ c.after := by
      refine place_unique front (c.before ++ c.header ++ c.body) (notMem_entryLine hfeed)
        (notMem_entryLine (entryIndent_spec c.body).2) ?_ ?_ ?_
      · rw [← hplace, hcontent]
        simp [Cut.inner]
      · rw [← hplace']
        simp [setEntries]
      · rw [← hplace]
        simp only [entryLine, List.length_append, List.length_cons]
        omega
    have hbracket : l.start = ']' :: ',' :: c.after := by
      rw [hstart, hhere, trimStart_footer hgap hfooter]
    refine ⟨l, Php.closing?_eq_some_iff.2 ⟨hl, ?_⟩, hbracket⟩
    have hmem := mem_of_behindHeader? hcode (Php.mem_of_mem_directlyInside hl)
    rw [Php.token_of_start hmem hbracket]
    rfl

/-- Where the footer's bracket closes the block, a patch changes the body and nothing else. -/
theorem editsOwnBlock_of_closing {l : Lexeme}
    (hcut : cut? content.toList driver.toList = some c) (hclosing : closing? 0 ls = some l)
    (hstart : l.start = ']' :: ',' :: c.after) : EditsOwnBlock content driver c ls := by
  obtain ⟨hcontent, gap, hgap, hfooter⟩ := cut?_eq_some hcut
  constructor
  · intro updates out hout
    rw [patch?_of_cut hcut] at hout
    obtain rfl := Option.some.inj hout
    refine ⟨l, c.body ++ '\n' :: gap, setEntries c.body updates ++ '\n' :: gap, hclosing, ?_, ?_⟩
    · rw [hcontent, hstart]
      simp [Cut.inner, hfooter]
    · rw [hstart]
      simp [hfooter]
  · intro updates u old new hold hnew
    rw [patch?_of_cut hcut] at hold hnew
    obtain rfl := Option.some.inj hold
    rw [setEntries_append_singleton] at hnew
    obtain rfl := Option.some.inj hnew
    cases hfound : Text.search (entryAt? u.1.toList) (setEntries c.body updates) with
    | some found =>
        obtain ⟨front, lead, comment, behind⟩ := found
        obtain ⟨hlead, hset, value, hbody⟩ :=
          setEntry_of_search hfound (entryIndent c.body) u.2.literal.toList
        refine .inl ⟨c.before ++ c.header ++ front, lead, value,
          comment ++ behind ++ c.footer ++ c.after, hlead, ?_, ?_⟩
        · rw [hbody]
          simp
        · rw [hset]
          simp
    | none =>
        have hset := setEntry_of_search_none hfound (entryIndent c.body) u.2.literal.toList
        obtain ⟨hblank, hfeed⟩ := entryIndent_spec c.body
        refine .inr ⟨c.footer ++ c.after, ⟨c.before ++ c.header ++ setEntries c.body updates,
          entryIndent c.body, hblank, hfeed, ?_, ?_⟩, l, ?_, ?_⟩
        · simp
        · rw [hset]
          simp
        · exact (Php.closing?_eq_some_iff.1 hclosing).1
        · rw [hstart, eq_comm, trimStart_footer hgap hfooter]

/-- A patch of a block whose header is code edits nothing but the block, and enters what is new
directly into it, exactly if the bracket that closes the block is the first behind the header that
starts a line and has a comma behind it. -/
theorem editsOwnBlock_iff (hcut : cut? content.toList driver.toList = some c)
    (hcode : behindHeader? c (codeLexemes content.toList) = some ls) :
    EditsOwnBlock content driver c ls ↔
      ∃ l, closing? 0 ls = some l ∧ l.start = ']' :: ',' :: c.after :=
  ⟨exists_closing_of_editsOwnBlock hcut hcode,
    fun ⟨_, hclosing, hstart⟩ => editsOwnBlock_of_closing hcut hclosing hstart⟩

/-- A configuration whose blocks end in a comma. -/
def withComma : String :=
  "<?php return ['connections' => [\n  'mysql' => [\n    'driver' => 'mysql',\n  ],\n],\n];\n"

/-- The same without the comma behind the last block, as the language allows it. -/
def withoutComma : String :=
  "<?php return ['connections' => [\n  'mysql' => [\n    'driver' => 'mysql',\n  ]\n],\n];\n"

deriving instance DecidableEq for Cut

/-- Where blocks end in a comma, only the block of the driver is edited. -/
theorem editsOwnBlock_iff_withComma :
    ∃ c ls, cut? withComma.toList "mysql".toList = some c ∧
      behindHeader? c (codeLexemes withComma.toList) = some ls ∧
      EditsOwnBlock withComma "mysql" c ls := by
  let c : Cut :=
    { before := "<?php return ['connections' => [\n  ".toList
      header := "'mysql' => [".toList
      body := "\n    'driver' => 'mysql',".toList
      footer := "\n  ],".toList
      after := "\n],\n];\n".toList }
  have hcut : cut? withComma.toList "mysql".toList = some c := by decide +kernel
  have hclosing : ((behindHeader? c (codeLexemes withComma.toList)).bind (closing? 0)).map
      (·.start) = some (']' :: ',' :: c.after) := by decide +kernel
  obtain ⟨l, hl, hstart⟩ := Option.map_eq_some_iff.1 hclosing
  obtain ⟨ls, hls, hl⟩ := Option.bind_eq_some_iff.1 hl
  exact ⟨c, ls, hcut, hls, (editsOwnBlock_iff hcut hls).2 ⟨l, hl, hstart⟩⟩

/-- Without the comma the first line that starts with a bracket and a comma closes the array around
the block, and a new entry is put behind the block. -/
theorem not_editsOwnBlock_withoutComma :
    patch? withoutComma "mysql" [("engine", .string "InnoDB")] = some
        ("<?php return ['connections' => [\n  'mysql' => [\n    'driver' => 'mysql',\n  ]\n" ++
          "    'engine' => 'InnoDB',\n],\n];\n") ∧
      ∃ c ls, cut? withoutComma.toList "mysql".toList = some c ∧
        behindHeader? c (codeLexemes withoutComma.toList) = some ls ∧
        ¬ EditsOwnBlock withoutComma "mysql" c ls := by
  let c : Cut :=
    { before := "<?php return ['connections' => [\n  ".toList
      header := "'mysql' => [".toList
      body := "\n    'driver' => 'mysql',\n  ]".toList
      footer := "\n],".toList
      after := "\n];\n".toList }
  have hcut : cut? withoutComma.toList "mysql".toList = some c := by decide +kernel
  have hclosing : ((behindHeader? c (codeLexemes withoutComma.toList)).bind (closing? 0)).map
      (·.start) = some "]\n],\n];\n".toList := by decide +kernel
  obtain ⟨l, hl, hstart⟩ := Option.map_eq_some_iff.1 hclosing
  obtain ⟨ls, hls, hl⟩ := Option.bind_eq_some_iff.1 hl
  refine ⟨by decide +kernel, c, ls, hcut, hls, fun h => ?_⟩
  obtain ⟨l', hl', hstart'⟩ := exists_closing_of_editsOwnBlock hcut hls h
  obtain rfl : l = l' := Option.some.inj (hl.symm.trans hl')
  exact absurd (hstart.symm.trans hstart') (by decide)

end Resettle.ConnectionBlock
