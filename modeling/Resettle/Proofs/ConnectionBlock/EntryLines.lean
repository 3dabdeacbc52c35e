import Resettle.Proofs.ConnectionBlock.Places

/-!
# Blocks of entry lines

A body in which every line has one entry, with a value, a comma and perhaps a comment.  The leads
of a key in such a body are those of its entries, so setting an entry exchanges the value on its
line.  The comment of the line is kept just if blanks set it off.
-/

namespace Resettle.ConnectionBlock

/-- A line with an entry: the lead is the quoted key with its arrow, and the comment is all that
follows the comma. -/
structure EntryLine where
  indent : List Char
  key : List Char
  lead : List Char
  value : List Char
  comment : List Char

namespace EntryLine

def text (l : EntryLine) : List Char :=
  l.indent ++ (l.lead ++ (l.value ++ ',' :: l.comment))

/-- A value on one line that starts behind the arrow and ends before the comma, and a key that ends
at its quote. -/
structure WellFormed (l : EntryLine) : Prop where
  indent : ∀ c ∈ l.indent, Text.isBlank c = true
  isLead : IsLead l.key l.lead
  unquoted : Unquoted l.key
  dark : StartsDark l.value
  uncommented : hasComment l.value = false
  oneLine : '\n' ∉ l.text

/-- Neither the value nor the comment holds a lead of a key. -/
structure Spares (l : EntryLine) (key : List Char) : Prop where
  value : leadsIn key l.value [] = 0
  comment : leadsIn key l.comment [] = 0

instance (l : EntryLine) (key : List Char) : Decidable (l.Spares key) :=
  decidable_of_iff (leadsIn key l.value [] = 0 ∧ leadsIn key l.comment [] = 0)
    ⟨fun h => ⟨h.1, h.2⟩, fun h => ⟨h.value, h.comment⟩⟩

end EntryLine

def bodyOf (lines : List EntryLine) : List Char :=
  lines.flatMap fun l => '\n' :: l.text

theorem bodyOf_append (front back : List EntryLine) :
    bodyOf (front ++ back) = bodyOf front ++ bodyOf back :=
  List.flatMap_append

theorem bodyOf_cons (l : EntryLine) (lines : List EntryLine) :
    bodyOf (l :: lines) =
      '\n' :: l.indent ++ (l.lead ++ (l.value ++ ',' :: (l.comment ++ bodyOf lines))) := by
  simp [bodyOf, EntryLine.text]

/-- A key that can be told in a text: no quote, comma, equals sign or line feed is in it. -/
structure IsName (key : List Char) : Prop where
  unquoted : Unquoted key
  comma : ',' ∉ key
  equals : '=' ∉ key
  oneLine : '\n' ∉ key

instance (key : List Char) : Decidable (IsName key) :=
  decidable_of_iff (Unquoted key ∧ ',' ∉ key ∧ '=' ∉ key ∧ '\n' ∉ key)
    ⟨fun h => ⟨h.1, h.2.1, h.2.2.1, h.2.2.2⟩,
      fun h => ⟨h.unquoted, h.comma, h.equals, h.oneLine⟩⟩

variable {key : List Char} {lines : List EntryLine}

/-! ## Leads of entries -/

/-- No lead reaches from a text over the end of its line into entry lines. -/
theorem leadsIn_bodyOf_behind (hkey : '\n' ∉ key) (hlines : ∀ l ∈ lines, l.WellFormed)
    (cs : List Char) : leadsIn key cs (bodyOf lines) = leadsIn key cs [] := by
  cases lines with
  | nil => rfl
  | cons l lines =>
      have hl := hlines l List.mem_cons_self
      have hblank : ∀ c ∈ '\n' :: l.indent, Text.isBlank c = true :=
        List.forall_mem_cons.2 ⟨by decide, hl.indent⟩
      have hline := leadsIn_append_indent hkey hl.indent hl.isLead cs
        (l.value ++ ',' :: (l.comment ++ bodyOf lines))
      rw [leadsIn_append, leadsIn_of_unquoted (unquoted_of_forall_isBlank hblank),
        Nat.add_zero] at hline
      rw [bodyOf_cons, hline]

theorem leadsIn_bodyOf (hkey : IsName key) (hlines : ∀ l ∈ lines, l.WellFormed)
    (hspares : ∀ l ∈ lines, l.Spares key) :
    leadsIn key (bodyOf lines) [] = (lines.map EntryLine.key).count key := by
  induction lines with
  | nil => rfl
  | cons l lines ih =>
      obtain ⟨hl, hlines⟩ := List.forall_mem_cons.1 hlines
      obtain ⟨hspare, hspares⟩ := List.forall_mem_cons.1 hspares
      have hblank : ∀ c ∈ '\n' :: l.indent, Text.isBlank c = true :=
        List.forall_mem_cons.2 ⟨by decide, hl.indent⟩
      have hcomment : leadsIn key l.comment (bodyOf lines ++ []) = 0 := by
        rw [List.append_nil, leadsIn_bodyOf_behind hkey.oneLine hlines, hspare.comment]
      rw [bodyOf_cons, leadsIn_append, leadsIn_of_unquoted (unquoted_of_forall_isBlank hblank),
        leadsIn_append, leadsIn_isLead hkey.unquoted hkey.equals hl.unquoted hl.isLead,
        leadsIn_literal hkey.comma hspare.value, leadsIn_append, hcomment, ih hlines hspares,
        List.map_cons, List.count_cons]
      simp only [beq_iff_eq]
      omega

variable {front back : List EntryLine} {l : EntryLine}

theorem firstAt_bodyOf (hkey : IsName l.key) (hlines : ∀ l' ∈ front ++ l :: back, l'.WellFormed)
    (hspares : ∀ l' ∈ front, l'.Spares l.key) (hnew : l.key ∉ front.map EntryLine.key) :
    FirstAt l.key (bodyOf (front ++ l :: back)) (bodyOf front ++ '\n' :: l.indent) l.lead
      (l.value ++ ',' :: (l.comment ++ bodyOf back)) where
  cut := by
    rw [bodyOf_append, bodyOf_cons]
    simp
  isLead := (hlines l (by simp)).isLead
  dark := startsDark_literal (hlines l (by simp)).dark _
  -- The key is none of the earlier lines, so there are no leads of it in front.
  first := by
    have hl := hlines l (by simp)
    have hfront := fun l' hl' => hlines l' (List.mem_append_left _ hl')
    rw [leadsIn_append_indent hkey.oneLine hl.indent hl.isLead,
      leadsIn_bodyOf hkey hfront hspares, List.count_eq_zero.2 hnew]

theorem search_bodyOf_eq_none (hkey : IsName key) (hlines : ∀ l ∈ lines, l.WellFormed)
    (hspares : ∀ l ∈ lines, l.Spares key) (hnew : key ∉ lines.map EntryLine.key) :
    Text.search (entryAt? key) (bodyOf lines) = none := by
  refine (Text.search_eq_none_iff _).2 ⟨?_, rfl⟩
  rw [hitsIn_entryAt?, leadsIn_bodyOf hkey hlines hspares, List.count_eq_zero.2 hnew]

/-! ## Comments that are kept -/

/-- What setting an entry keeps of the text behind its comma. -/
def keptComment (comment : List Char) : List Char :=
  ((Text.search entryEnd? (',' :: comment)).map Prod.snd).getD []

theorem search_keptComment (comment : List Char) :
    ∃ skipped, Text.search entryEnd? (',' :: comment) = some (skipped, keptComment comment) := by
  obtain ⟨skipped, kept, h⟩ := exists_search_entryEnd? (',' :: comment)
  refine ⟨skipped, ?_⟩
  rw [keptComment, h]
  rfl

/-- No entry ends in front of its comma, if no comment starts there. -/
theorem hitsIn_entryEnd?_eq_zero {value : List Char} (h : hasComment value = false)
    (comment : List Char) : Text.hitsIn entryEnd? value (',' :: comment) = 0 := by
  rw [Text.hitsIn_eq_zero_iff]
  intro c ys hys
  -- An end in front of the comma would be a comment: no blanks reach over the comma.
  rw [Option.eq_none_iff_forall_ne_some]
  intro kept hkept
  obtain ⟨comma, tail, hcomma, htail, hend⟩ := entryEnd?_eq_some_iff.1 hkept
  rcases hcomma with rfl | rfl
  · rw [List.nil_append] at htail
    rw [← htail, ← List.cons_append] at hend
    exact hasComment_eq_false_iff.1 h _ hys (lineEnd?_append_comma hend).2
  · obtain ⟨rfl, rfl⟩ := List.cons.inj htail
    exact hasComment_eq_false_iff.1 h _ ((List.suffix_cons _ ys).trans hys)
      (lineEnd?_append_comma hend).2

theorem search_entryEnd?_append {value : List Char} (h : hasComment value = false)
    (comment : List Char) : ∃ skipped,
      Text.search entryEnd? (value ++ ',' :: comment) = some (skipped, keptComment comment) := by
  obtain ⟨skipped, hfound⟩ := search_keptComment comment
  obtain ⟨rest, hcut, hread, hfirst⟩ := (Text.search_eq_some_iff _).1 hfound
  refine ⟨value ++ skipped, (Text.search_eq_some_iff _).2 ⟨rest, by rw [hcut]; simp, hread, ?_⟩⟩
  rw [Text.hitsIn_append, hfirst, ← hcut, hitsIn_entryEnd?_eq_zero h]

theorem keptComment_suffix (comment : List Char) : keptComment comment <:+ comment := by
  obtain ⟨skipped, hfound⟩ := search_keptComment comment
  obtain ⟨rest, hcut, hread⟩ := Text.search_eq_some hfound
  cases skipped with
  | nil =>
      obtain ⟨comma, tail, hcomma, htail, hend⟩ := entryEnd?_eq_some_iff.1 hread
      rw [← hcut.trans (List.nil_append rest)] at htail
      rcases hcomma with rfl | rfl
      · rw [List.nil_append] at htail
        rw [← htail, lineEnd?_comma] at hend
        cases hend
      · obtain ⟨-, rfl⟩ := List.cons.inj htail
        rcases lineEnd?_eq_some_iff.1 hend with ⟨-, hkept⟩ | ⟨-, hkept⟩
        · exact ⟨[], hkept⟩
        · exact hkept ▸ List.nil_suffix
  | cons c skipped =>
      obtain ⟨-, rfl⟩ := List.cons.inj hcut
      exact (suffix_of_entryEnd? hread).trans (List.suffix_append _ _)

/-- A comment is kept as it is just if blanks set it off from the comma. -/
theorem keptComment_eq_self_iff {comment : List Char} :
    keptComment comment = comment ↔ comment = [] ∨ IsComment comment := by
  constructor
  · intro h
    obtain ⟨skipped, hfound⟩ := search_keptComment comment
    obtain ⟨rest, -, hread⟩ := Text.search_eq_some hfound
    rw [h] at hread
    obtain ⟨_, tail, -, -, hend⟩ := entryEnd?_eq_some_iff.1 hread
    rcases lineEnd?_eq_some_iff.1 hend with ⟨hcomment, rfl⟩ | ⟨-, hnil⟩
    · exact .inr hcomment
    · exact .inl hnil
  · intro h
    rw [keptComment, Text.search, entryEnd?_comma h]
    rfl

/-! ## Setting an entry of a line -/

theorem lineOf_append_bodyOf {cs : List Char} (h : '\n' ∉ cs) (lines : List EntryLine) :
    lineOf (cs ++ bodyOf lines) = cs ∧ behindLine (cs ++ bodyOf lines) = bodyOf lines := by
  have hall : ∀ c ∈ cs, decide (c ≠ '\n') = true := fun c hc =>
    decide_eq_true fun hfeed => h (hfeed ▸ hc)
  unfold lineOf behindLine
  rw [List.takeWhile_append_of_pos hall, List.dropWhile_append_of_pos hall]
  cases lines with
  | nil => exact ⟨List.append_nil cs, rfl⟩
  | cons l lines => exact ⟨List.append_nil cs, rfl⟩

/-- Setting an entry exchanges the value on its line, and keeps of the comment what is set off. -/
theorem setEntry_bodyOf (hkey : IsName l.key) (hlines : ∀ l' ∈ front ++ l :: back, l'.WellFormed)
    (hspares : ∀ l' ∈ front, l'.Spares l.key) (hnew : l.key ∉ front.map EntryLine.key)
    (indent literal : List Char) :
    setEntry indent (bodyOf (front ++ l :: back)) l.key literal =
      bodyOf (front ++
        { l with value := literal, comment := keptComment l.comment } :: back) := by
  have hl := hlines l (by simp)
  have hfeed : '\n' ∉ l.value ++ ',' :: l.comment := fun hmem =>
    hl.oneLine (List.mem_append_right _ (List.mem_append_right _ hmem))
  obtain ⟨skipped, comment, hend, -, hset⟩ := (firstAt_bodyOf hkey hlines hspares hnew).setEntry
  have hvalue : l.value ++ ',' :: (l.comment ++ bodyOf back) =
      (l.value ++ ',' :: l.comment) ++ bodyOf back := by simp
  rw [hvalue, (lineOf_append_bodyOf hfeed back).1] at hend
  obtain ⟨_, hfound⟩ := search_entryEnd?_append hl.uncommented l.comment
  obtain ⟨-, rfl⟩ := Prod.mk.inj (Option.some.inj (hend.symm.trans hfound))
  rw [hset, hvalue, (lineOf_append_bodyOf hfeed back).2, bodyOf_append, bodyOf_cons]
  simp

end Resettle.ConnectionBlock
