import Resettle.Proofs.ConnectionBlock.Leads

/-!
# Setting an entry, place by place

The first lead of a key is where its entry is set.  The lemmas say what one setting does to the
first leads of the other keys: as long as no lead stands in the value that is given up, they stay
where they are, and an entry that has been written stays written.
-/

namespace Resettle.ConnectionBlock

variable {key other : List Char}

/-- The first lead of a key in a text, between the text in front of it and the value. -/
structure FirstAt (key cs front lead value : List Char) : Prop where
  cut : cs = front ++ (lead ++ value)
  isLead : IsLead key lead
  dark : StartsDark value
  first : leadsIn key front (lead ++ value) = 0

/-- What may follow an entry's comma: the end of the line, or a comment. -/
def EndsLine (cs : List Char) : Prop :=
  (∀ c ∈ cs.head?, c = '\n') ∨ IsComment cs

def lineOf (cs : List Char) : List Char :=
  cs.takeWhile (· ≠ '\n')

def behindLine (cs : List Char) : List Char :=
  cs.dropWhile (· ≠ '\n')

theorem lineOf_append_behindLine (cs : List Char) : lineOf cs ++ behindLine cs = cs :=
  List.takeWhile_append_dropWhile

theorem hitsIn_entryAt? (key cs behind : List Char) :
    Text.hitsIn (entryAt? key) cs behind = leadsIn key cs behind :=
  Text.hitsIn_of_isSome (isSome_entryAt? key) cs behind

theorem exists_firstAt {cs : List Char} (h : Text.search (entryAt? key) cs ≠ none) :
    ∃ front lead value, FirstAt key cs front lead value := by
  obtain ⟨⟨front, lead, comment, behind⟩, hfound⟩ := Option.ne_none_iff_exists'.1 h
  obtain ⟨_, rfl, hentry, hfirst⟩ := (Text.search_eq_some_iff _).1 hfound
  obtain ⟨value, _, hlead, hdark, rfl, -, -⟩ := entryAt?_eq_some_iff.1 hentry
  rw [hitsIn_entryAt?] at hfirst
  exact ⟨front, lead, value, rfl, hlead, hdark, hfirst⟩

/-- Setting an entry that has a place: the value is given up to the comment or the end of its
line. -/
theorem FirstAt.setEntry {cs front lead value : List Char} (h : FirstAt key cs front lead value) :
    ∃ skipped comment, Text.search entryEnd? (lineOf value) = some (skipped, comment) ∧
      Text.search (entryAt? key) cs = some (front, lead, comment, behindLine value) ∧
      ∀ indent literal, ConnectionBlock.setEntry indent cs key literal =
        front ++ lead ++ (literal ++ ',' :: (comment ++ behindLine value)) := by
  obtain ⟨skipped, comment, hend⟩ := exists_search_entryEnd? (lineOf value)
  have hfound : Text.search (entryAt? key) cs =
      some (front, lead, comment, behindLine value) := by
    refine (Text.search_eq_some_iff _).2 ⟨lead ++ value, h.cut, ?_, ?_⟩
    · exact entryAt?_eq_some_iff.2 ⟨value, skipped, h.isLead, h.dark, rfl, hend, rfl⟩
    · rw [hitsIn_entryAt?]
      exact h.first
  exact ⟨skipped, comment, hend, hfound, fun indent literal =>
    (setEntry_of_search hfound indent literal).2.1⟩

theorem leadsIn_of_search_none {cs : List Char} (h : Text.search (entryAt? key) cs = none) :
    leadsIn key cs [] = 0 := by
  rw [← hitsIn_entryAt?]
  exact ((Text.search_eq_none_iff _).1 h).1

/-! ## The end of a line -/

theorem head?_behindLine (cs : List Char) : ∀ c ∈ (behindLine cs).head?, c = '\n' := by
  intro c hc
  have h := List.head?_dropWhile_not (· ≠ '\n') cs
  unfold behindLine at hc
  rw [Option.mem_def] at hc
  rw [hc] at h
  simpa using h

theorem IsComment.append {line : List Char} (h : IsComment line) (behind : List Char) :
    IsComment (line ++ behind) := by
  obtain ⟨blanks, rest, hne, hall, rfl⟩ := h
  exact ⟨blanks, rest ++ behind, hne, hall, by simp⟩

theorem endsLine_of_entryEnd? {line comment : List Char} (h : entryEnd? line = some comment)
    (value : List Char) : EndsLine (comment ++ behindLine value) := by
  obtain ⟨_, rest, _, _, hend⟩ := entryEnd?_eq_some_iff.1 h
  rcases lineEnd?_eq_some_iff.1 hend with ⟨hcomment, rfl⟩ | ⟨_, rfl⟩
  · exact .inr (hcomment.append _)
  · exact .inl (head?_behindLine value)

/-- A comment starts in front of a character that is neither blank nor a slash, if it starts before
that character. -/
theorem IsComment.of_append_cons {front cs : List Char} {c : Char} (h : IsComment (front ++ c :: cs))
    (hspace : isSpace c = false) (hslash : c ≠ '/') : IsComment front := by
  obtain ⟨blanks, rest, hne, hall, heq⟩ := h
  rcases List.append_eq_append_iff.1 heq with ⟨extra, rfl, hextra⟩ | ⟨extra, rfl, hextra⟩
  · cases extra with
    | nil => exact absurd (List.cons.inj hextra).1 hslash
    | cons o extra =>
        have hmem := List.all_eq_true.1 hall c
          (List.mem_append_right _ ((List.cons.inj hextra).1 ▸ List.mem_cons_self))
        rw [hspace] at hmem
        cases hmem
  · rcases extra with _ | ⟨o, _ | ⟨o', extra⟩⟩
    · exact absurd (List.cons.inj hextra).1.symm hslash
    · exact absurd (List.cons.inj (List.cons.inj hextra).2).1.symm hslash
    · obtain ⟨rfl, hrest⟩ := List.cons.inj hextra
      obtain ⟨rfl, -⟩ := List.cons.inj hrest
      exact ⟨blanks, extra, hne, hall, rfl⟩

theorem EndsLine.of_quote {front cs : List Char} {q : Char} (hq : IsQuote q)
    (h : EndsLine (front ++ q :: cs)) (cs' : List Char) : EndsLine (front ++ cs') := by
  have hplain : isSpace q = false ∧ q ≠ '/' ∧ q ≠ '\n' := by
    rcases hq with rfl | rfl <;> decide
  rcases h with h | h
  · cases front with
    | nil => exact absurd (h q rfl) hplain.2.2
    | cons f front => exact .inl fun c hc => h c hc
  · exact .inr ((h.of_append_cons hplain.1 hplain.2.1).append cs')

/-! ## Values that are given up -/

theorem FirstAt.exists_old {cs front lead value : List Char}
    (h : FirstAt key cs front lead value) :
    ∃ old more, value = old ++ more ∧ old <+: lineOf value ∧ EndsLine more ∧
      ∀ indent literal, ConnectionBlock.setEntry indent cs key literal =
        front ++ lead ++ (literal ++ ',' :: more) := by
  obtain ⟨skipped, comment, hend, -, hset⟩ := h.setEntry
  obtain ⟨line, hline, hcomment⟩ := Text.search_eq_some hend
  obtain ⟨stop, rfl⟩ := suffix_of_entryEnd? hcomment
  refine ⟨skipped ++ stop, comment ++ behindLine value, ?_, ?_, endsLine_of_entryEnd? hcomment _,
    hset⟩
  · calc value = lineOf value ++ behindLine value := (lineOf_append_behindLine value).symm
      _ = _ := by rw [hline]; simp
  · exact ⟨comment, by rw [hline]; simp⟩

theorem notMem_lineOf (cs : List Char) : '\n' ∉ lineOf cs := by
  intro h
  have := List.mem_takeWhile_imp h
  simp at this

/-! ## Written entries -/

/-- The first entry of a key reads as a literal with a comma, and the line ends there or in a
comment. -/
def Written (key literal cs : List Char) : Prop :=
  ∃ front lead more, FirstAt key cs front lead (literal ++ ',' :: more) ∧ EndsLine more

theorem startsDark_literal {literal : List Char} (h : StartsDark literal) (more : List Char) :
    StartsDark (literal ++ ',' :: more) := by
  cases literal with
  | nil =>
      intro c hc
      obtain rfl : ',' = c := by simpa using hc
      decide
  | cons l literal => exact h

theorem FirstAt.written {cs front lead old more literal : List Char}
    (h : FirstAt key cs front lead (old ++ more)) (hkey : IsWord key)
    (hdark : StartsDark literal) (hmore : EndsLine more) :
    Written key literal (front ++ lead ++ (literal ++ ',' :: more)) := by
  refine ⟨front, lead, more, ⟨by simp, h.isLead, startsDark_literal hdark more, ?_⟩, hmore⟩
  rw [leadsIn_lead hkey h.isLead front _ (old ++ more)]
  exact h.first

/-- Setting an entry takes the leads away that stand in the value given up, and no others. -/
theorem FirstAt.leadsIn_set {cs front lead old more literal : List Char}
    (h : FirstAt other cs front lead (old ++ more)) (hkey : IsWord key) (hother : IsWord other)
    (hliteral : leadsIn key literal [] = 0) :
    leadsIn key (front ++ lead ++ (literal ++ ',' :: more)) [] + leadsIn key old more =
      leadsIn key cs [] := by
  have hold : leadsIn key cs [] =
      leadsIn key (front ++ lead) (old ++ more) + leadsIn key (old ++ more) [] := by
    rw [h.cut, ← List.append_assoc, leadsIn_append, List.append_nil]
  have hnew := leadsIn_append key (front ++ lead) (literal ++ ',' :: more) []
  rw [leadsIn_literal (hkey.notMem (by decide)) hliteral,
    leadsIn_append_lead hkey hother h.isLead front _ (old ++ more)] at hnew
  rw [hold, hnew, leadsIn_append key old, List.append_nil]
  omega

theorem startsDark_of_literal {literal more : List Char}
    (h : StartsDark (literal ++ ',' :: more)) (more' : List Char) :
    StartsDark (literal ++ ',' :: more') := by
  cases literal with
  | nil => exact h
  | cons l literal => exact h

/-- A lead that stands in the text of a written entry stands behind its comma. -/
theorem lead_behind_comma {literal rest v lead value : List Char} (hother : IsWord other)
    (hlead : IsLead other lead) (hliteral : leadsIn other literal [] = 0)
    (h : literal ++ ',' :: rest = v ++ (lead ++ value)) :
    ∃ more, v = literal ++ ',' :: more ∧ rest = more ++ (lead ++ value) := by
  have hnotcomma : ∀ {cs}, ',' :: cs ≠ lead ++ value := by
    intro cs heq
    obtain ⟨q, _, _, _, hq, _, _, _, rfl⟩ := hlead
    obtain ⟨rfl, -⟩ := List.cons.inj heq
    rcases hq with hq | hq <;> cases hq
  rcases List.append_eq_append_iff.1 h with ⟨extra, rfl, hover⟩ | ⟨extra, rfl, hover⟩
  · cases extra with
    | nil => exact absurd hover hnotcomma
    | cons o extra =>
        obtain ⟨rfl, hrest⟩ := List.cons.inj hover
        exact ⟨extra, rfl, hrest⟩
  · cases extra with
    | nil => exact absurd hover.symm hnotcomma
    | cons o extra =>
        have hnone := leadsIn_eq_zero_iff.1 hliteral o extra (List.suffix_append v (o :: extra))
        have hsome := isSome_of_isLead hlead value
        rw [hover, isSome_afterArrow?_comma (hother.notMem (by decide))] at hsome
        rw [List.append_nil, hsome] at hnone
        cases hnone

/-- A lead that stands behind another, but not in the value given up there, stands behind that
value. -/
theorem lead_behind_old {old more v lead value : List Char} (hlead : IsLead key lead)
    (hold : leadsIn key old more = 0) (h : old ++ more = v ++ (lead ++ value)) :
    ∃ rest, v = old ++ rest ∧ more = rest ++ (lead ++ value) := by
  rcases List.append_eq_append_iff.1 h with ⟨extra, rfl, hover⟩ | ⟨extra, rfl, hover⟩
  · exact ⟨extra, rfl, hover⟩
  · cases extra with
    | nil => exact ⟨[], by simp, by simpa using hover.symm⟩
    | cons o extra =>
        have hnone := leadsIn_eq_zero_iff.1 hold o extra (List.suffix_append v (o :: extra))
        have hsome := isSome_of_isLead hlead value
        rw [hover, List.cons_append] at hsome
        rw [hsome] at hnone
        cases hnone

/-- A written entry stays written when another entry is set, unless its lead stood in the value
given up. -/
theorem Written.set {cs front lead old more literal literal' : List Char}
    (hw : Written key literal cs) (h : FirstAt other cs front lead (old ++ more))
    (hkey : IsWord key) (hother : IsWord other) (hne : key ≠ other)
    (hold : leadsIn key old more = 0) (hliteral : leadsIn other literal [] = 0)
    (hliteral' : leadsIn key literal' [] = 0) :
    Written key literal (front ++ lead ++ (literal' ++ ',' :: more)) := by
  obtain ⟨first, lead', rest, hfirst, hends⟩ := hw
  have hcut := h.cut.symm.trans hfirst.cut
  rcases lead_order hother hkey h.isLead hfirst.isLead hcut with
    ⟨v, rfl, hv⟩ | rfl | ⟨v, rfl, hv⟩
  · -- The entry stands in front of the lead that is set, which then stands behind its comma.
    obtain ⟨rest', rfl, rfl⟩ := lead_behind_comma hother h.isLead hliteral hv
    refine ⟨first, lead', rest' ++ (lead ++ (literal' ++ ',' :: more)),
      ⟨by simp, hfirst.isLead, startsDark_of_literal hfirst.dark _, ?_⟩, ?_⟩
    · rw [leadsIn_lead hkey hfirst.isLead first _]
      exact hfirst.first
    · obtain ⟨q, _, _, _, hq, _, _, _, rfl⟩ := h.isLead
      exact hends.of_quote hq _
  · have hsame := List.append_cancel_left hcut
    exact absurd (key_unique_of_isLead hother hkey h.isLead hfirst.isLead hsame).symm hne
  · -- The entry stands behind the lead that is set, and behind the value given up as well.
    obtain ⟨rest', rfl, rfl⟩ := lead_behind_old hfirst.isLead hold hv
    refine ⟨front ++ lead ++ (literal' ++ ',' :: rest'), lead', rest,
      ⟨by simp, hfirst.isLead, hfirst.dark, ?_⟩, hends⟩
    have hzero := hfirst.first
    rw [← List.append_assoc front lead, leadsIn_append, leadsIn_append key old,
      Nat.add_eq_zero_iff, Nat.add_eq_zero_iff] at hzero
    obtain ⟨hlead, -, hrest⟩ := hzero
    rw [leadsIn_append, leadsIn_literal (hkey.notMem (by decide)) hliteral', hrest,
      leadsIn_append_lead hkey hother h.isLead front _ _, hlead]

/-! ## Entries that are added -/

def newLead (key : List Char) : List Char :=
  '\'' :: (key ++ '\'' :: ' ' :: '=' :: '>' :: [' '])

theorem isLead_newLead (key : List Char) : IsLead key (newLead key) := by
  have hblank : ∀ c ∈ [' '], Text.isBlank c = true := List.forall_mem_singleton.2 (by decide)
  exact ⟨'\'', '\'', [' '], [' '], .inl rfl, .inl rfl, hblank, hblank, rfl⟩

theorem entryLine_eq (indent key literal : List Char) :
    entryLine indent key literal = indent ++ (newLead key ++ (literal ++ [','])) := by
  simp [entryLine, newLead]

variable {indent : List Char}

/-- A line feed, an indentation and a lead take no lead in from the text in front of them. -/
theorem leadsIn_append_indent (hkey : '\n' ∉ key)
    (hindent : ∀ c ∈ indent, Text.isBlank c = true) {lead : List Char} (hlead : IsLead other lead)
    (cs rest : List Char) : leadsIn key (cs ++ '\n' :: indent) (lead ++ rest) = leadsIn key cs [] := by
  have hblank : ∀ c ∈ '\n' :: indent, Text.isBlank c = true :=
    List.forall_mem_cons.2 ⟨by decide, hindent⟩
  rw [leadsIn_append, leadsIn_of_unquoted (unquoted_of_forall_isBlank hblank), Nat.add_zero]
  obtain ⟨q, q', gap, gap', hq, -, -, -, rfl⟩ := hlead
  have harrow : q ≠ '=' := by rcases hq with rfl | rfl <;> decide
  have hline := leadsIn_line hkey hindent hq.isBlank_eq_false harrow cs
    (other ++ q' :: (gap ++ '=' :: '>' :: gap') ++ rest)
  simpa using hline

theorem written_append {cs literal : List Char} (hkey : IsWord key)
    (hindent : ∀ c ∈ indent, Text.isBlank c = true) (hdark : StartsDark literal)
    (h : leadsIn key cs [] = 0) :
    Written key literal (cs ++ '\n' :: entryLine indent key literal) := by
  refine ⟨cs ++ '\n' :: indent, newLead key, [], ⟨?_, isLead_newLead key, ?_, ?_⟩, .inl ?_⟩
  · rw [entryLine_eq]
    simp
  · exact startsDark_literal hdark []
  · rw [leadsIn_append_indent (hkey.notMem (by decide)) hindent (isLead_newLead key), h]
  · simp

theorem Written.append {cs literal : List Char} (hw : Written key literal cs) (hkey : IsWord key)
    (line : List Char) : Written key literal (cs ++ '\n' :: line) := by
  obtain ⟨front, lead, more, hfirst, hends⟩ := hw
  refine ⟨front, lead, more ++ '\n' :: line, ⟨?_, hfirst.isLead, ?_, ?_⟩, ?_⟩
  · rw [hfirst.cut]
    simp
  · exact startsDark_of_literal hfirst.dark _
  · rw [leadsIn_lead hkey hfirst.isLead front _ (literal ++ ',' :: more)]
    exact hfirst.first
  · rcases hends with hends | hends
    · cases more with
      | nil =>
          refine .inl fun c hc => ?_
          exact (Option.some.inj hc).symm
      | cons m more => exact .inl hends
    · exact .inr (hends.append _)

/-! ## Setting a written entry again -/

theorem entryEnd?_comma {line : List Char} (h : line = [] ∨ IsComment line) :
    entryEnd? (',' :: line) = some line := by
  refine entryEnd?_eq_some_iff.2 ⟨[','], line, .inr rfl, rfl, lineEnd?_eq_some_iff.2 ?_⟩
  rcases h with rfl | h
  · exact .inr ⟨rfl, rfl⟩
  · exact .inl ⟨h, rfl⟩

def hasComment (cs : List Char) : Bool :=
  (Text.search comment? cs).isSome

theorem isSome_comment?_iff {cs : List Char} : (comment? cs).isSome = true ↔ IsComment cs := by
  rw [Option.isSome_iff_exists]
  exact ⟨fun ⟨_, h⟩ => (comment?_eq_some_iff.1 h).1, fun h => ⟨cs, comment?_eq_some_iff.2 ⟨h, rfl⟩⟩⟩

theorem IsComment.ne_nil {cs : List Char} (h : IsComment cs) : cs ≠ [] := by
  obtain ⟨blanks, rest, _, _, rfl⟩ := h
  simp

theorem hasComment_eq_false_iff {cs : List Char} :
    hasComment cs = false ↔ ∀ tail, tail <:+ cs → ¬ IsComment tail := by
  have hnil : comment? [] = none := rfl
  rw [hasComment, Option.isSome_eq_false_iff, Option.isNone_iff_eq_none, Text.search_eq_none_iff,
    Text.hitsIn_eq_zero_iff]
  constructor
  · rintro ⟨h, -⟩ tail htail hcomment
    cases tail with
    | nil => exact hcomment.ne_nil rfl
    | cons c ys =>
        have hnone := h c ys htail
        rw [List.append_nil] at hnone
        rw [comment?_eq_some_iff.2 ⟨hcomment, rfl⟩] at hnone
        cases hnone
  · intro h
    refine ⟨fun c ys hys => ?_, hnil⟩
    rw [List.append_nil, ← Option.isNone_iff_eq_none, ← Option.isSome_eq_false_iff,
      Bool.eq_false_iff]
    exact fun hsome => h _ hys (isSome_comment?_iff.1 hsome)

theorem lineEnd?_append_comma {front line comment : List Char}
    (h : lineEnd? (front ++ ',' :: line) = some comment) :
    comment = front ++ ',' :: line ∧ IsComment front := by
  rcases lineEnd?_eq_some_iff.1 h with ⟨hcomment, rfl⟩ | ⟨hall, -⟩
  · exact ⟨rfl, hcomment.of_append_cons (by decide) (by decide)⟩
  · rw [List.all_append, Bool.and_eq_true, List.all_cons, Bool.and_eq_true] at hall
    exact absurd hall.2.1 (by decide)

theorem entryEnd?_of_isComment {line : List Char} (h : IsComment line) :
    entryEnd? line = some line :=
  entryEnd?_eq_some_iff.2 ⟨[], line, .inl rfl, rfl, lineEnd?_eq_some_iff.2 (.inl ⟨h, rfl⟩)⟩

theorem hasComment_eq_false_of_hitsIn {cs behind : List Char}
    (h : Text.hitsIn entryEnd? cs behind = 0) : hasComment cs = false := by
  rw [Text.hitsIn_eq_zero_iff] at h
  refine hasComment_eq_false_iff.2 fun tail htail hcomment => ?_
  cases tail with
  | nil => exact hcomment.ne_nil rfl
  | cons c ys =>
      have hnone := h c ys htail
      have hread : IsComment (c :: (ys ++ behind)) := hcomment.append behind
      rw [entryEnd?_of_isComment hread] at hnone
      cases hnone

/-- The end of a written entry's line is found where it is, or in front of it where a comment
starts in the literal. -/
theorem comment_of_search {literal line skipped comment : List Char}
    (hline : line = [] ∨ IsComment line)
    (h : Text.search entryEnd? (literal ++ ',' :: line) = some (skipped, comment)) :
    hasComment literal = false ∧ comment = line ∨
      ∃ front, front <:+ literal ∧ IsComment front ∧ comment = front ++ ',' :: line := by
  obtain ⟨rest, hcut, hend, hfirst⟩ := (Text.search_eq_some_iff _).1 h
  have hcomma := entryEnd?_comma hline
  rcases List.append_eq_append_iff.1 hcut with ⟨extra, rfl, hover⟩ | ⟨extra, rfl, rfl⟩
  · rw [Text.hitsIn_append, Nat.add_eq_zero_iff] at hfirst
    refine .inl ⟨hasComment_eq_false_of_hitsIn hfirst.1, ?_⟩
    cases extra with
    | nil =>
        rw [List.nil_append] at hover
        rw [← hover, hcomma] at hend
        exact (Option.some.inj hend).symm
    | cons o extra =>
        obtain ⟨rfl, rfl⟩ := List.cons.inj hover
        have hnone := (Text.hitsIn_eq_zero_iff _).1 hfirst.2 _ _ (List.suffix_refl _)
        exact absurd (hnone.symm.trans hcomma) (by simp)
  · cases extra with
    | nil =>
        rw [List.nil_append, hcomma] at hend
        rw [List.append_nil]
        exact .inl ⟨hasComment_eq_false_of_hitsIn hfirst, (Option.some.inj hend).symm⟩
    | cons o extra =>
        obtain ⟨comma, rest, hrest, heq, hend⟩ := entryEnd?_eq_some_iff.1 hend
        rcases hrest with rfl | rfl
        · rw [List.nil_append] at heq
          subst heq
          obtain ⟨hcomment, hread⟩ := lineEnd?_append_comma hend
          exact .inr ⟨o :: extra, List.suffix_append skipped _, hread, hcomment⟩
        · obtain ⟨rfl, rfl⟩ := List.cons.inj heq
          obtain ⟨hcomment, hread⟩ := lineEnd?_append_comma hend
          refine .inr ⟨extra, ?_, hread, hcomment⟩
          exact (List.suffix_cons _ extra).trans (List.suffix_append skipped _)

theorem lineOf_of_endsLine {cs : List Char} (h : EndsLine cs) :
    lineOf cs = [] ∨ IsComment (lineOf cs) := by
  unfold lineOf
  rcases h with h | ⟨blanks, rest, hne, hall, rfl⟩
  · cases cs with
    | nil => exact .inl rfl
    | cons c cs =>
        obtain rfl : c = '\n' := h c rfl
        exact .inl rfl
  · refine .inr ⟨blanks, rest.takeWhile (· ≠ '\n'), hne, hall, ?_⟩
    have hfeed : ∀ c ∈ blanks, decide (c ≠ '\n') = true := by
      intro c hc
      have hspace := List.all_eq_true.1 hall c hc
      rw [decide_eq_true_eq]
      rintro rfl
      exact absurd hspace (by decide)
    rw [List.takeWhile_append_of_pos hfeed]
    rfl

theorem lineOf_literal {literal : List Char} (h : '\n' ∉ literal) (more : List Char) :
    lineOf (literal ++ ',' :: more) = literal ++ ',' :: lineOf more ∧
      behindLine (literal ++ ',' :: more) = behindLine more := by
  have hall : ∀ c ∈ literal, decide (c ≠ '\n') = true := by
    intro c hc
    rw [decide_eq_true_eq]
    rintro rfl
    exact h hc
  unfold lineOf behindLine
  rw [List.takeWhile_append_of_pos hall, List.dropWhile_append_of_pos hall]
  exact ⟨rfl, rfl⟩

/-- Setting a written entry again changes nothing, or a comment starts in its literal and the text
grows. -/
theorem Written.again {cs literal : List Char} (hw : Written key literal cs)
    (hfeed : '\n' ∉ literal) (indent : List Char) :
    hasComment literal = false ∧ setEntry indent cs key literal = cs ∨
      hasComment literal = true ∧ cs.length < (setEntry indent cs key literal).length := by
  obtain ⟨front, lead, more, hfirst, hends⟩ := hw
  obtain ⟨skipped, comment, hend, -, hset⟩ := hfirst.setEntry
  obtain ⟨hline, hbehind⟩ := lineOf_literal hfeed more
  rw [hline] at hend
  have hnew := hset indent literal
  rw [hbehind] at hnew
  have hcs := hfirst.cut
  have hmore := lineOf_append_behindLine more
  rcases comment_of_search (lineOf_of_endsLine hends) hend with
    ⟨hclean, rfl⟩ | ⟨extra, hover, hread, rfl⟩
  · refine .inl ⟨hclean, ?_⟩
    rw [hnew, hcs, hmore]
    simp
  · refine .inr ⟨?_, ?_⟩
    · rw [← Bool.not_eq_false]
      exact fun hclean => hasComment_eq_false_iff.1 hclean extra hover hread
    · have hlength := congrArg List.length hmore
      rw [hnew, hcs]
      simp only [List.length_append, List.length_cons] at hlength ⊢
      omega

end Resettle.ConnectionBlock
