import Mathlib.Data.List.TakeWhile
import Resettle.ConnectionBlock

/-!
# Entries of a connection block

What the readers of a block find, as equations between texts.  A lead is a quoted key with its
arrow; an entry is a lead, a value up to the end of the line, and perhaps a comment; and setting
an entry exchanges the value of the first one of its key or adds a line behind the block's body.
-/

namespace Resettle.ConnectionBlock

/-! ## Leads -/

/-- Whether a character is a quote of either kind. -/
def IsQuote (c : Char) : Prop :=
  c = '\'' ∨ c = '"'

instance : DecidablePred IsQuote :=
  fun _ => inferInstanceAs (Decidable (_ ∨ _))

/-- A quoted key with an arrow, blanks standing around the arrow. -/
def IsLead (key lead : List Char) : Prop :=
  ∃ q q' gap gap', IsQuote q ∧ IsQuote q' ∧ (∀ c ∈ gap, Text.isBlank c = true) ∧
    (∀ c ∈ gap', Text.isBlank c = true) ∧ lead = q :: (key ++ q' :: (gap ++ '=' :: '>' :: gap'))

/-- A text that does not start with a blank. -/
def StartsDark (cs : List Char) : Prop :=
  ∀ c ∈ cs.head?, Text.isBlank c = false

theorem dropQuote?_eq_some_iff {cs rest : List Char} :
    dropQuote? cs = some rest ↔ ∃ q, IsQuote q ∧ cs = q :: rest := by
  unfold dropQuote? IsQuote
  split
  · simp [eq_comm]
  · simp [eq_comm]
  · next hsingle hdouble =>
      simp only [reduceCtorEq, false_iff, not_exists, not_and]
      rintro q (rfl | rfl) rfl
      · exact hsingle _ rfl
      · exact hdouble _ rfl

theorem trimStart_eq_iff {cs rest : List Char} :
    Text.trimStart cs = rest ↔
      ∃ gap, (∀ c ∈ gap, Text.isBlank c = true) ∧ cs = gap ++ rest ∧ StartsDark rest := by
  unfold Text.trimStart StartsDark
  constructor
  · rintro rfl
    refine ⟨cs.takeWhile Text.isBlank, fun c hc => List.mem_takeWhile_imp hc,
      List.takeWhile_append_dropWhile.symm, ?_⟩
    intro c hc
    have h := List.head?_dropWhile_not Text.isBlank cs
    rw [Option.mem_def] at hc
    rw [hc] at h
    simpa using h
  · rintro ⟨gap, hgap, rfl, hdark⟩
    rw [List.dropWhile_append_of_pos hgap]
    cases rest with
    | nil => rfl
    | cons c rest =>
        have hc : Text.isBlank c = false := hdark c rfl
        rw [List.dropWhile_cons_of_neg (by simp [hc])]

theorem afterArrow?_eq_some_iff {key cs value : List Char} :
    afterArrow? key cs = some value ↔
      ∃ lead, IsLead key lead ∧ cs = lead ++ value ∧ StartsDark value := by
  simp only [afterArrow?, Option.bind_eq_bind, Option.bind_eq_some_iff, dropQuote?_eq_some_iff,
    Text.drop?_eq_some_iff, Option.pure_def, Option.some.injEq, trimStart_eq_iff]
  constructor
  · rintro ⟨_, ⟨q, hq, rfl⟩, _, rfl, _, ⟨q', hq', rfl⟩, _, ⟨gap, hgap, rfl, -⟩, gap', hgap', rfl,
      hdark⟩
    exact ⟨_, ⟨q, q', gap, gap', hq, hq', hgap, hgap', rfl⟩, by simp, hdark⟩
  · rintro ⟨_, ⟨q, q', gap, gap', hq, hq', hgap, hgap', rfl⟩, rfl, hdark⟩
    refine ⟨_, ⟨q, hq, rfl⟩, q' :: (gap ++ '=' :: '>' :: (gap' ++ value)), by simp, _,
      ⟨q', hq', rfl⟩, gap' ++ value, ⟨gap, hgap, rfl, ?_⟩, gap', hgap', rfl, hdark⟩
    intro c hc
    obtain rfl : '=' = c := by simpa using hc
    decide

theorem inFrontOf_append (front rest : List Char) : inFrontOf (front ++ rest) rest = front := by
  unfold inFrontOf
  rw [List.length_append, Nat.add_sub_cancel, List.take_left]

/-! ## Headers and footers -/

theorem header?_eq_some_iff {driver cs header inner : List Char} :
    header? driver cs = some (header, inner) ↔
      ∃ lead, IsLead driver lead ∧ header = lead ++ ['['] ∧ cs = header ++ inner := by
  simp only [header?, Option.bind_eq_bind, Option.bind_eq_some_iff, Text.drop?_eq_some_iff,
    afterArrow?_eq_some_iff, Option.pure_def, Option.some.injEq, Prod.mk.injEq]
  constructor
  · rintro ⟨_, ⟨lead, hlead, rfl, -⟩, _, rfl, rfl, rfl⟩
    refine ⟨lead, hlead, ?_, ?_⟩
    · rw [← List.append_assoc, inFrontOf_append]
    · rw [← List.append_assoc, inFrontOf_append]
  · rintro ⟨lead, hlead, rfl, rfl⟩
    refine ⟨'[' :: inner, ⟨lead, hlead, by simp, ?_⟩, inner, rfl, inFrontOf_append _ _, rfl⟩
    intro c hc
    obtain rfl : '[' = c := by simpa using hc
    decide

theorem footer?_eq_some_iff {cs footer after : List Char} :
    footer? cs = some (footer, after) ↔
      ∃ gap, (∀ c ∈ gap, Text.isBlank c = true) ∧ footer = '\n' :: (gap ++ [']', ',']) ∧
        cs = footer ++ after := by
  simp only [footer?, Option.bind_eq_bind, Option.bind_eq_some_iff, Text.drop?_eq_some_iff,
    Option.pure_def, Option.some.injEq, Prod.mk.injEq, trimStart_eq_iff]
  constructor
  · rintro ⟨_, rfl, after, ⟨gap, hgap, rfl, -⟩, rfl, rfl⟩
    have hsplit : ['\n'] ++ (gap ++ ([']', ','] ++ after)) =
        '\n' :: (gap ++ [']', ',']) ++ after := by simp
    refine ⟨gap, hgap, ?_, ?_⟩
    · rw [hsplit, inFrontOf_append]
    · rw [hsplit, inFrontOf_append]
  · rintro ⟨gap, hgap, rfl, rfl⟩
    refine ⟨gap ++ ']' :: ',' :: after, by simp, after, ⟨gap, hgap, by simp, ?_⟩,
      inFrontOf_append _ _, rfl⟩
    intro c hc
    obtain rfl : ']' = c := by simpa using hc
    decide

/-! ## Entries -/

/-- A comment behind a value: blanks and two slashes. -/
def IsComment (line : List Char) : Prop :=
  ∃ blanks rest, blanks ≠ [] ∧ blanks.all isSpace = true ∧ line = blanks ++ '/' :: '/' :: rest

theorem comment?_eq_some_iff {line comment : List Char} :
    comment? line = some comment ↔ IsComment line ∧ comment = line := by
  have hcut : (line.takeWhile isSpace ≠ [] ∧
      (Text.drop? ['/', '/'] (line.dropWhile isSpace)).isSome = true) ↔ IsComment line := by
    rw [Option.isSome_iff_exists]
    constructor
    · rintro ⟨hne, rest, hrest⟩
      refine ⟨line.takeWhile isSpace, rest, hne, ?_, ?_⟩
      · exact List.all_eq_true.2 fun c hc => List.mem_takeWhile_imp hc
      · rw [Text.drop?_eq_some_iff] at hrest
        have hline := List.takeWhile_append_dropWhile (p := isSpace) (l := line)
        rw [hrest] at hline
        exact hline.symm
    · rintro ⟨blanks, rest, hne, hall, rfl⟩
      have hall' : ∀ c ∈ blanks, isSpace c = true := fun c hc => List.all_eq_true.1 hall c hc
      rw [List.takeWhile_append_of_pos hall', List.dropWhile_append_of_pos hall']
      exact ⟨by simp [hne], rest, by simp [isSpace, Text.drop?]⟩
  unfold comment?
  dsimp only
  split
  · next h => simp [hcut.1 h, eq_comm]
  · next h => simp [mt hcut.2 h]

theorem IsComment.not_all_isSpace {line : List Char} (h : IsComment line) :
    line.all isSpace = false := by
  obtain ⟨blanks, rest, _, _, rfl⟩ := h
  simp [isSpace]

/-- What ends a line behind a value and its comma: a comment, or blanks only. -/
def lineEnd? (rest : List Char) : Option (List Char) :=
  match comment? rest with
  | some comment => some comment
  | none => if rest.all isSpace then some [] else none

theorem lineEnd?_eq_some_iff {rest comment : List Char} :
    lineEnd? rest = some comment ↔
      IsComment rest ∧ comment = rest ∨ rest.all isSpace = true ∧ comment = [] := by
  unfold lineEnd?
  cases h : comment? rest with
  | some found =>
      obtain ⟨hcomment, rfl⟩ := comment?_eq_some_iff.1 h
      simp [hcomment, hcomment.not_all_isSpace, eq_comm]
  | none =>
      have hno : ¬ IsComment rest := by
        intro hcomment
        rw [comment?_eq_some_iff.2 ⟨hcomment, rfl⟩] at h
        cases h
      by_cases hall : rest.all isSpace = true
      · rw [if_pos hall]
        simp [hno, hall, eq_comm]
      · rw [if_neg hall]
        simp [hno, hall]

theorem lineEnd?_comma (rest : List Char) : lineEnd? (',' :: rest) = none := by
  rw [Option.eq_none_iff_forall_ne_some]
  intro comment h
  rcases lineEnd?_eq_some_iff.1 h with ⟨⟨blanks, more, hne, hall, heq⟩, _⟩ | ⟨hall, _⟩
  · cases blanks with
    | nil => exact hne rfl
    | cons c blanks =>
        obtain ⟨rfl, _⟩ := List.cons.inj heq
        simp [isSpace] at hall
  · simp [isSpace] at hall

/-- A line ends behind a value in a comment or in blanks, a comma being allowed in front. -/
theorem entryEnd?_eq_some_iff {line comment : List Char} :
    entryEnd? line = some comment ↔
      ∃ comma rest, (comma = [] ∨ comma = [',']) ∧ line = comma ++ rest ∧
        lineEnd? rest = some comment := by
  have hcomma : ∀ rest, entryEnd? (',' :: rest) = (lineEnd? rest).or (lineEnd? (',' :: rest)) :=
    fun _ => rfl
  constructor
  · intro h
    cases line with
    | nil => exact ⟨[], [], .inl rfl, rfl, h⟩
    | cons c line =>
        by_cases hc : c = ','
        · subst hc
          rw [hcomma, lineEnd?_comma, Option.or_none] at h
          exact ⟨[','], line, .inr rfl, rfl, h⟩
        · refine ⟨[], c :: line, .inl rfl, rfl, ?_⟩
          unfold entryEnd? at h
          split at h
          · next heq => exact absurd (List.cons.inj heq).1 hc
          · exact h
  · rintro ⟨comma, line, rfl | rfl, rfl, h⟩
    · cases line with
      | nil => exact h
      | cons c line =>
          by_cases hc : c = ','
          · subst hc
            rw [lineEnd?_comma] at h
            cases h
          · unfold entryEnd?
            split
            · next heq => exact absurd (List.cons.inj heq).1 hc
            · exact h
    · rw [List.singleton_append, hcomma, lineEnd?_comma, Option.or_none, h]

theorem suffix_of_entryEnd? {line comment : List Char} (h : entryEnd? line = some comment) :
    comment <:+ line := by
  obtain ⟨comma, rest, _, rfl, hend⟩ := entryEnd?_eq_some_iff.1 h
  rcases lineEnd?_eq_some_iff.1 hend with ⟨_, rfl⟩ | ⟨_, rfl⟩
  · exact List.suffix_append comma comment
  · exact List.nil_suffix

theorem exists_search_entryEnd? (line : List Char) :
    ∃ skipped comment, Text.search entryEnd? line = some (skipped, comment) := by
  induction line with
  | nil => exact ⟨[], [], rfl⟩
  | cons c line ih =>
      obtain ⟨skipped, comment, h⟩ := ih
      cases hc : entryEnd? (c :: line) with
      | none => exact ⟨c :: skipped, comment, by simp [Text.search, hc, h]⟩
      | some comment' => exact ⟨[], comment', by simp [Text.search, hc]⟩

/-- An entry is a lead with a value; the comment ends the value's line. -/
theorem entryAt?_eq_some_iff {key cs lead comment behind : List Char} :
    entryAt? key cs = some (lead, comment, behind) ↔
      ∃ value skipped, IsLead key lead ∧ StartsDark value ∧ cs = lead ++ value ∧
        Text.search entryEnd? (value.takeWhile (· ≠ '\n')) = some (skipped, comment) ∧
        behind = value.dropWhile (· ≠ '\n') := by
  simp only [entryAt?, Option.bind_eq_bind, Option.bind_eq_some_iff, afterArrow?_eq_some_iff,
    Option.pure_def, Option.some.injEq, Prod.mk.injEq, Prod.exists]
  constructor
  · rintro ⟨value, ⟨lead, hlead, rfl, hdark⟩, skipped, comment, hend, rfl, rfl, rfl⟩
    rw [inFrontOf_append]
    exact ⟨value, skipped, hlead, hdark, rfl, hend, rfl⟩
  · rintro ⟨value, skipped, hlead, hdark, rfl, hend, rfl⟩
    exact ⟨value, ⟨lead, hlead, rfl, hdark⟩, skipped, comment, hend, inFrontOf_append _ _, rfl,
      rfl⟩

theorem isSome_entryAt? (key cs : List Char) :
    (entryAt? key cs).isSome = (afterArrow? key cs).isSome := by
  cases h : afterArrow? key cs with
  | none => simp [entryAt?, h]
  | some value =>
      obtain ⟨skipped, comment, hend⟩ :=
        exists_search_entryEnd? (value.takeWhile (· ≠ '\n'))
      simp only [entryAt?, h, Option.bind_eq_bind, Option.bind_some, hend]
      rfl

/-! ## Setting an entry -/

def entryLine (indent key literal : List Char) : List Char :=
  indent ++ '\'' :: (key ++ '\'' :: ' ' :: '=' :: '>' :: ' ' :: (literal ++ [',']))

/-- Where a body has an entry of the key, the literal and a comma take the place of its old value,
which reaches up to the comment or the end of the line. -/
theorem setEntry_of_search {body key front lead comment behind : List Char}
    (h : Text.search (entryAt? key) body = some (front, lead, comment, behind))
    (indent literal : List Char) :
    IsLead key lead ∧ setEntry indent body key literal =
        front ++ lead ++ (literal ++ ',' :: (comment ++ behind)) ∧
      ∃ old, body = front ++ lead ++ (old ++ (comment ++ behind)) := by
  obtain ⟨rest, rfl, hentry⟩ := Text.search_eq_some h
  obtain ⟨value, skipped, hlead, -, rfl, hend, rfl⟩ := entryAt?_eq_some_iff.1 hentry
  refine ⟨hlead, ?_, ?_⟩
  · unfold setEntry
    rw [h]
    simp
  · obtain ⟨line, hline, hcomment⟩ := Text.search_eq_some hend
    obtain ⟨stop, rfl⟩ := suffix_of_entryEnd? hcomment
    refine ⟨skipped ++ stop, ?_⟩
    have hvalue := List.takeWhile_append_dropWhile (p := (· ≠ '\n')) (l := value)
    rw [hline] at hvalue
    simp only [List.append_assoc] at hvalue ⊢
    rw [hvalue]

theorem setEntry_of_search_none {body key : List Char}
    (h : Text.search (entryAt? key) body = none) (indent literal : List Char) :
    setEntry indent body key literal = body ++ '\n' :: entryLine indent key literal := by
  unfold setEntry entryLine
  rw [h]
  simp

end Resettle.ConnectionBlock
