import Resettle.Proofs.ConnectionBlock.Entries
import Resettle.Proofs.Scalar.Literal
import Resettle.Proofs.Text.Hits

/-!
# Leads in a text

Where the leads of plain keys stand in a text.  Whether one starts at a place is settled by the
text up to its arrow, so an edit behind an arrow moves no lead in front of it, and a text in which
no lead starts takes none in from the comma behind it.
-/

namespace Resettle.ConnectionBlock

def isKeyChar (c : Char) : Bool :=
  c.isAlpha || c == '_'

/-- A key that is a word: it ends at its quote and at nothing else. -/
def IsWord (key : List Char) : Prop :=
  key ≠ [] ∧ key.all isKeyChar = true

instance (key : List Char) : Decidable (IsWord key) :=
  inferInstanceAs (Decidable (_ ∧ _))

theorem IsWord.notMem {key : List Char} (h : IsWord key) {c : Char} (hc : isKeyChar c = false) :
    c ∉ key := by
  intro hmem
  rw [List.all_eq_true.1 h.2 c hmem] at hc
  cases hc

/-- A text without quotes. -/
def Unquoted (cs : List Char) : Prop :=
  ∀ c ∈ cs, ¬ IsQuote c

instance (cs : List Char) : Decidable (Unquoted cs) :=
  List.decidableBAll _ cs

/-- What stands in front of a lead's arrow: the quoted key and blanks. -/
def IsQuoted (key stem : List Char) : Prop :=
  ∃ q q' gap, IsQuote q ∧ IsQuote q' ∧ (∀ c ∈ gap, Text.isBlank c = true) ∧
    stem = q :: (key ++ q' :: gap)

theorem isSome_afterArrow?_iff {key cs : List Char} :
    (afterArrow? key cs).isSome = true ↔
      ∃ stem rest, IsQuoted key stem ∧ cs = stem ++ '=' :: '>' :: rest := by
  rw [Option.isSome_iff_exists]
  constructor
  · rintro ⟨value, h⟩
    obtain ⟨_, ⟨q, q', gap, gap', hq, hq', hgap, -, rfl⟩, rfl, -⟩ := afterArrow?_eq_some_iff.1 h
    exact ⟨q :: (key ++ q' :: gap), gap' ++ value, ⟨q, q', gap, hq, hq', hgap, rfl⟩, by simp⟩
  · rintro ⟨_, rest, ⟨q, q', gap, hq, hq', hgap, rfl⟩, rfl⟩
    obtain ⟨gap', hgap', hrest, hdark⟩ := trimStart_eq_iff.1 (rfl : Text.trimStart rest = _)
    refine ⟨Text.trimStart rest, afterArrow?_eq_some_iff.2
      ⟨q :: (key ++ q' :: (gap ++ '=' :: '>' :: gap')), ⟨q, q', gap, gap', hq, hq', hgap, hgap',
        rfl⟩, ?_, hdark⟩⟩
    simp only [List.append_assoc, List.cons_append]
    rw [← hrest]

theorem IsQuoted.notMem {key stem : List Char} (h : IsQuoted key stem) {c : Char} (hkey : c ∉ key)
    (hquote : ¬ IsQuote c) (hblank : Text.isBlank c = false) : c ∉ stem := by
  obtain ⟨q, q', gap, hq, hq', hgap, rfl⟩ := h
  intro hmem
  simp only [List.mem_cons, List.mem_append] at hmem
  rcases hmem with rfl | hmem | rfl | hmem
  · exact hquote hq
  · exact hkey hmem
  · exact hquote hq'
  · rw [hgap c hmem] at hblank
    cases hblank

theorem IsQuoted.notMem_arrow {key stem : List Char} (h : IsQuoted key stem) (hkey : '=' ∉ key) :
    '=' ∉ stem :=
  h.notMem hkey (by decide) (by decide)

theorem IsQuoted.notMem_comma {key stem : List Char} (h : IsQuoted key stem) (hkey : ',' ∉ key) :
    ',' ∉ stem :=
  h.notMem hkey (by decide) (by decide)

/-- Behind a line feed a quoted key on one line goes on with blanks. -/
theorem IsQuoted.blank_of_feed {key stem front more : List Char} (h : IsQuoted key stem)
    (hkey : '\n' ∉ key) (hstem : stem = front ++ '\n' :: more) :
    ∀ c ∈ more, Text.isBlank c = true := by
  obtain ⟨q, q', gap, hq, hq', hgap, rfl⟩ := h
  have hfeed : '\n' ∉ q :: (key ++ [q']) := by
    have hnot : ∀ {c}, IsQuote c → '\n' ≠ c := by
      rintro c (rfl | rfl) <;> decide
    simp only [List.mem_cons, List.mem_append, List.not_mem_nil, or_false, not_or]
    exact ⟨hnot hq, hkey, hnot hq'⟩
  have hsplit : (q :: (key ++ [q'])) ++ gap = front ++ '\n' :: more := by
    rw [← hstem]
    simp
  rcases List.append_eq_append_iff.1 hsplit with ⟨extra, -, rfl⟩ | ⟨extra, hfront, hover⟩
  · exact fun c hc => hgap c (List.mem_append_right _ (List.mem_cons_of_mem _ hc))
  · cases extra with
    | nil =>
        rw [List.nil_append] at hover
        exact fun c hc => hgap c (hover ▸ List.mem_cons_of_mem _ hc)
    | cons o extra =>
        obtain ⟨rfl, _⟩ := List.cons.inj hover
        rw [hfront] at hfeed
        exact absurd (List.mem_append_right _ List.mem_cons_self) hfeed

/-! ## What settles a lead -/

variable {key : List Char}

theorem isSome_afterArrow?_append {front : List Char} (h : (afterArrow? key front).isSome = true)
    (behind : List Char) : (afterArrow? key (front ++ behind)).isSome = true := by
  obtain ⟨stem, rest, hstem, rfl⟩ := isSome_afterArrow?_iff.1 h
  exact isSome_afterArrow?_iff.2 ⟨stem, rest ++ behind, hstem, by simp⟩

/-- A lead of a text in two parts stands in the first or reaches into the second. -/
theorem lead_cases {front behind : List Char}
    (h : (afterArrow? key (front ++ behind)).isSome = true) :
    (afterArrow? key front).isSome = true ∨
      ∃ stem extra rest, IsQuoted key stem ∧ extra ≠ [] ∧ stem ++ ['=', '>'] = front ++ extra ∧
        behind = extra ++ rest := by
  obtain ⟨stem, rest, hstem, heq⟩ := isSome_afterArrow?_iff.1 h
  have heq' : front ++ behind = (stem ++ ['=', '>']) ++ rest := by
    rw [heq]
    simp
  rcases List.append_eq_append_iff.1 heq' with ⟨extra, hover, rfl⟩ | ⟨extra, rfl, -⟩
  · by_cases hnil : extra = []
    · rw [hnil, List.append_nil] at hover
      exact .inl (isSome_afterArrow?_iff.2 ⟨stem, [], hstem, hover.symm⟩)
    · exact .inr ⟨stem, extra, rest, hstem, hnil, hover, rfl⟩
  · exact .inl (isSome_afterArrow?_iff.2 ⟨stem, extra, hstem, by simp⟩)

/-- What follows an arrow does not matter to a lead that starts in front of it. -/
theorem isSome_afterArrow?_arrow (hkey : '=' ∉ key) (front behind behind' : List Char) :
    (afterArrow? key (front ++ '=' :: '>' :: behind)).isSome =
      (afterArrow? key (front ++ '=' :: '>' :: behind')).isSome := by
  have himp : ∀ behind behind', (afterArrow? key (front ++ '=' :: '>' :: behind)).isSome = true →
      (afterArrow? key (front ++ '=' :: '>' :: behind')).isSome = true := by
    intro behind behind' h
    have hsplit : ∀ more : List Char,
        front ++ '=' :: '>' :: more = (front ++ ['=', '>']) ++ more := by simp
    rw [hsplit] at h ⊢
    rcases lead_cases h with h | ⟨stem, extra, rest, hstem, hne, hover, -⟩
    · exact isSome_afterArrow?_append h _
    · -- The stem would reach over the arrow, but it holds no equals sign.
      have hover' : stem ++ ['=', '>'] = front ++ '=' :: '>' :: extra := by
        rw [hover, List.append_assoc]
        rfl
      rcases List.append_eq_append_iff.1 hover' with ⟨more, -, hmore⟩ | ⟨more, rfl, hmore⟩
      · have hlength := congrArg List.length hmore
        have hpos := List.length_pos_of_ne_nil hne
        simp only [List.length_append, List.length_cons, List.length_nil] at hlength
        omega
      · cases more with
        | nil => exact absurd (by simpa using hmore) hne
        | cons m more =>
            obtain ⟨rfl, _⟩ := List.cons.inj hmore
            exact absurd (by simp) (hstem.notMem_arrow hkey)
  exact Bool.eq_iff_iff.2 ⟨himp _ _, himp _ _⟩

theorem isSome_afterArrow?_comma (hkey : ',' ∉ key) (front behind : List Char) :
    (afterArrow? key (front ++ ',' :: behind)).isSome = (afterArrow? key front).isSome := by
  refine Bool.eq_iff_iff.2 ⟨fun h => ?_, fun h => isSome_afterArrow?_append h _⟩
  rcases lead_cases h with h | ⟨stem, extra, rest, hstem, hne, hover, hbehind⟩
  · exact h
  · cases extra with
    | nil => exact absurd rfl hne
    | cons o extra =>
        obtain ⟨rfl, _⟩ := List.cons.inj hbehind
        have hmem : ',' ∈ stem ++ ['=', '>'] := hover ▸ by simp
        have hno := hstem.notMem_comma hkey
        simp [hno] at hmem

/-- A line that does not go on with an arrow ends every lead that could start in front of it. -/
theorem isSome_afterArrow?_line (hkey : '\n' ∉ key) {indent : List Char}
    (hindent : ∀ c ∈ indent, Text.isBlank c = true) {d : Char} (hdark : Text.isBlank d = false)
    (harrow : d ≠ '=') (front behind : List Char) :
    (afterArrow? key (front ++ '\n' :: (indent ++ d :: behind))).isSome =
      (afterArrow? key front).isSome := by
  refine Bool.eq_iff_iff.2 ⟨fun h => ?_, fun h => isSome_afterArrow?_append h _⟩
  rcases lead_cases h with h | ⟨stem, extra, rest, hstem, hne, hover, hbehind⟩
  · exact h
  · cases extra with
    | nil => exact absurd rfl hne
    | cons o extra =>
        obtain ⟨rfl, hline⟩ := List.cons.inj hbehind
        rcases List.append_eq_append_iff.1 hover with ⟨more, -, hmore⟩ | ⟨more, hmore, hover⟩
        · have hmem : '\n' ∈ ['=', '>'] := hmore ▸ by simp
          exact absurd hmem (by decide)
        · cases more with
          | nil => exact absurd (List.cons.inj hover).1 (by decide)
          | cons m more =>
              obtain ⟨rfl, rfl⟩ := List.cons.inj hover
              -- The blanks behind the line feed end at `d`, and at the arrow as well.
              have hblank := hstem.blank_of_feed hkey hmore
              have hends : Text.trimStart (indent ++ d :: behind) = d :: behind :=
                trimStart_eq_iff.2 ⟨indent, hindent, rfl, fun c hc => Option.some.inj hc ▸ hdark⟩
              have hends' : Text.trimStart (indent ++ d :: behind) = '=' :: '>' :: rest :=
                trimStart_eq_iff.2 ⟨more, hblank, by rw [hline]; simp, by
                  intro c hc
                  obtain rfl : '=' = c := by simpa using hc
                  decide⟩
              exact absurd (List.cons.inj (hends.symm.trans hends')).1 harrow

/-! ## Counting leads -/

/-- The number of leads of a key that start in a text when `behind` follows it. -/
def leadsIn (key cs behind : List Char) : Nat :=
  Text.hitsIn (afterArrow? key) cs behind

theorem leadsIn_append (key xs ys behind : List Char) :
    leadsIn key (xs ++ ys) behind = leadsIn key xs (ys ++ behind) + leadsIn key ys behind :=
  Text.hitsIn_append _ xs ys behind

theorem leadsIn_arrow (hkey : '=' ∉ key) (xs ys behind behind' : List Char) :
    leadsIn key xs (ys ++ '=' :: '>' :: behind) = leadsIn key xs (ys ++ '=' :: '>' :: behind') := by
  refine Text.hitsIn_congr _ fun c zs _ => ?_
  have h := isSome_afterArrow?_arrow hkey (c :: (zs ++ ys)) behind behind'
  simpa using h

theorem leadsIn_comma (hkey : ',' ∉ key) (xs behind : List Char) :
    leadsIn key xs (',' :: behind) = leadsIn key xs [] := by
  refine Text.hitsIn_congr _ fun c zs _ => ?_
  have h := isSome_afterArrow?_comma hkey (c :: zs) behind
  simpa using h

theorem leadsIn_line (hkey : '\n' ∉ key) {indent : List Char}
    (hindent : ∀ c ∈ indent, Text.isBlank c = true) {d : Char} (hdark : Text.isBlank d = false)
    (harrow : d ≠ '=') (xs behind : List Char) :
    leadsIn key xs ('\n' :: (indent ++ d :: behind)) = leadsIn key xs [] := by
  refine Text.hitsIn_congr _ fun c zs _ => ?_
  have h := isSome_afterArrow?_line hkey hindent hdark harrow (c :: zs) behind
  simpa using h

theorem leadsIn_eq_zero_iff {cs behind : List Char} :
    leadsIn key cs behind = 0 ↔
      ∀ c ys, c :: ys <:+ cs → (afterArrow? key (c :: (ys ++ behind))).isSome = false :=
  Text.hitsIn_eq_zero_iff_isSome _

theorem quote_of_isSome {c : Char} {cs : List Char}
    (h : (afterArrow? key (c :: cs)).isSome = true) : IsQuote c := by
  obtain ⟨_, rest, ⟨q, q', gap, hq, -, -, rfl⟩, hcut⟩ := isSome_afterArrow?_iff.1 h
  obtain ⟨rfl, _⟩ := List.cons.inj hcut
  exact hq

theorem leadsIn_of_unquoted {cs : List Char} (h : Unquoted cs) (behind : List Char) :
    leadsIn key cs behind = 0 := by
  rw [leadsIn_eq_zero_iff]
  intro c ys hys
  rw [Bool.eq_false_iff]
  exact fun hlead => h c (hys.subset List.mem_cons_self) (quote_of_isSome hlead)

/-- A text without leads takes none in from a comma and what follows it. -/
theorem leadsIn_literal (hkey : ',' ∉ key) {literal : List Char}
    (h : leadsIn key literal [] = 0) (more behind : List Char) :
    leadsIn key (literal ++ ',' :: more) behind = leadsIn key more behind := by
  have hcomma : leadsIn key [','] (more ++ behind) = 0 :=
    leadsIn_of_unquoted (List.forall_mem_singleton.2 (by decide)) _
  have hsplit := leadsIn_append key [','] more behind
  rw [hcomma, Nat.zero_add] at hsplit
  rw [leadsIn_append, List.cons_append, leadsIn_comma hkey, h, Nat.zero_add]
  exact hsplit

/-! ## Leads in leads -/

theorem isSome_of_isLead {lead : List Char} (h : IsLead key lead) (behind : List Char) :
    (afterArrow? key (lead ++ behind)).isSome = true := by
  obtain ⟨q, q', gap, gap', hq, hq', hgap, -, rfl⟩ := h
  exact isSome_afterArrow?_iff.2 ⟨q :: (key ++ q' :: gap), gap' ++ behind,
    ⟨q, q', gap, hq, hq', hgap, rfl⟩, by simp⟩

theorem IsQuote.isKeyChar_eq_false {c : Char} (h : IsQuote c) : isKeyChar c = false := by
  rcases h with rfl | rfl <;> decide

theorem IsQuote.isBlank_eq_false {c : Char} (h : IsQuote c) : Text.isBlank c = false := by
  rcases h with rfl | rfl <;> decide

theorem unquoted_of_forall_isBlank {cs : List Char} (h : ∀ c ∈ cs, Text.isBlank c = true) :
    Unquoted cs := by
  intro c hc hquote
  have hblank := h c hc
  rw [hquote.isBlank_eq_false] at hblank
  cases hblank

theorem IsWord.unquoted (hkey : IsWord key) : Unquoted key :=
  fun _ hc hquote => hkey.notMem hquote.isKeyChar_eq_false hc

/-- The key of a lead reaches from its first character to the next quote. -/
theorem takeWhile_of_isSome (hkey : Unquoted key) {c : Char} {cs : List Char}
    (h : (afterArrow? key (c :: cs)).isSome = true) :
    cs.takeWhile (fun c => decide (¬ IsQuote c)) = key := by
  obtain ⟨_, rest, ⟨q, q', gap, -, hq', -, rfl⟩, hcut⟩ := isSome_afterArrow?_iff.1 h
  have hcs : cs = key ++ q' :: (gap ++ '=' :: '>' :: rest) := by simpa using (List.cons.inj hcut).2
  rw [hcs, List.takeWhile_append_of_pos fun c hc => decide_eq_true (hkey c hc),
    List.takeWhile_cons_of_neg (by simp [hq']), List.append_nil]

theorem key_unique {other : List Char} (hkey : Unquoted key) (hother : Unquoted other)
    {c : Char} {cs : List Char} (h : (afterArrow? key (c :: cs)).isSome = true)
    (h' : (afterArrow? other (c :: cs)).isSome = true) : key = other :=
  (takeWhile_of_isSome hkey h).symm.trans (takeWhile_of_isSome hother h')

theorem leadsIn_tail {other : List Char} (hkey : Unquoted key) (hequals : '=' ∉ key)
    (hother : Unquoted other) {q : Char} {tail : List Char} (h : IsLead other (q :: tail))
    (behind : List Char) : leadsIn key tail behind = 0 := by
  obtain ⟨_, q', gap, gap', _, hq', hgap, hgap', heq⟩ := h
  obtain ⟨rfl, rfl⟩ := List.cons.inj heq
  have hword : leadsIn key other (q' :: (gap ++ '=' :: '>' :: gap') ++ behind) = 0 :=
    leadsIn_of_unquoted hother _
  have hblank : Unquoted gap := unquoted_of_forall_isBlank hgap
  have harrow : Unquoted (gap ++ '=' :: '>' :: gap') := by
    intro c hc
    simp only [List.mem_append, List.mem_cons] at hc
    rcases hc with hc | rfl | rfl | hc
    · exact hblank c hc
    · decide
    · decide
    · exact unquoted_of_forall_isBlank hgap' c hc
  have hquote : (afterArrow? key (q' :: (gap ++ '=' :: '>' :: gap' ++ behind))).isSome = false := by
    rw [Bool.eq_false_iff]
    intro hlead
    -- The key would reach over the arrow, but it holds no equals sign.
    have hreach := takeWhile_of_isSome hkey hlead
    rw [List.append_assoc, List.takeWhile_append_of_pos fun c hc => decide_eq_true (hblank c hc),
      List.cons_append, List.takeWhile_cons_of_pos (by decide)] at hreach
    exact hequals (hreach ▸ List.mem_append_right _ List.mem_cons_self)
  rw [leadsIn_append, hword, Nat.zero_add]
  refine (Nat.add_eq_zero_iff.2 ⟨?_, leadsIn_of_unquoted harrow behind⟩)
  rw [hquote]
  rfl

/-- A lead holds one lead of its own key, where it starts, and none of another key. -/
theorem leadsIn_isLead {other lead : List Char} (hkey : Unquoted key) (hequals : '=' ∉ key)
    (hother : Unquoted other) (hlead : IsLead other lead) (behind : List Char) :
    leadsIn key lead behind = if other = key then 1 else 0 := by
  have hsome := isSome_of_isLead hlead behind
  obtain ⟨q, _, _, _, -, -, -, -, rfl⟩ := id hlead
  have htail := leadsIn_tail hkey hequals hother hlead behind
  unfold leadsIn at htail ⊢
  rw [Text.hitsIn, htail, Nat.add_zero]
  by_cases hsame : other = key
  · subst hsame
    exact (if_pos hsome).trans (if_pos rfl).symm
  · rw [if_neg hsame, if_neg]
    exact fun hfound => hsame (key_unique hother hkey hsome hfound)

/-- Leads do not overlap: one that starts behind the start of another starts behind its end. -/
theorem lead_behind {other lead lead' value value' between : List Char} (hkey : IsWord key)
    (hother : IsWord other) (hlead : IsLead key lead) (hlead' : IsLead other lead')
    (h : lead ++ value = between ++ (lead' ++ value')) :
    between = [] ∨ ∃ more, between = lead ++ more ∧ value = more ++ (lead' ++ value') := by
  rcases List.append_eq_append_iff.1 h with ⟨more, rfl, rfl⟩ | ⟨extra, hover, hrest⟩
  · exact .inr ⟨more, rfl, rfl⟩
  · cases between with
    | nil => exact .inl rfl
    | cons q between =>
        cases extra with
        | nil => exact .inr ⟨[], by simpa using hover.symm, by simpa using hrest.symm⟩
        | cons c extra =>
            have htail := leadsIn_tail hother.unquoted (hother.notMem (by decide)) hkey.unquoted
              (hover ▸ hlead) value
            have hnone := leadsIn_eq_zero_iff.1 htail c extra
              (List.suffix_append between (c :: extra))
            have hsome := isSome_of_isLead hlead' value'
            rw [hrest, List.cons_append] at hsome
            rw [hsome] at hnone
            cases hnone

/-- Of two leads one stands in front of the other, or they start at one place. -/
theorem lead_order {other front lead value front' lead' value' : List Char} (hkey : IsWord key)
    (hother : IsWord other) (hlead : IsLead key lead) (hlead' : IsLead other lead')
    (h : front ++ (lead ++ value) = front' ++ (lead' ++ value')) :
    (∃ mid, front = front' ++ (lead' ++ mid) ∧ value' = mid ++ (lead ++ value)) ∨
      front = front' ∨
      ∃ mid, front' = front ++ (lead ++ mid) ∧ value = mid ++ (lead' ++ value') := by
  rcases List.append_eq_append_iff.1 h with ⟨between, rfl, hbetween⟩ | ⟨between, rfl, hbetween⟩
  · rcases lead_behind hkey hother hlead hlead' hbetween with rfl | ⟨mid, rfl, hmid⟩
    · exact .inr (.inl (List.append_nil _).symm)
    · exact .inr (.inr ⟨mid, rfl, hmid⟩)
  · rcases lead_behind hother hkey hlead' hlead hbetween with rfl | ⟨mid, rfl, hmid⟩
    · exact .inr (.inl (List.append_nil _))
    · exact .inl ⟨mid, rfl, hmid⟩

theorem key_unique_of_isLead {other lead lead' value value' : List Char} (hkey : IsWord key)
    (hother : IsWord other) (hlead : IsLead key lead) (hlead' : IsLead other lead')
    (h : lead ++ value = lead' ++ value') : key = other := by
  have hsome := isSome_of_isLead hlead value
  have hsome' := isSome_of_isLead hlead' value'
  rw [← h] at hsome'
  obtain ⟨_, _, _, _, _, _, _, _, rfl⟩ := hlead
  exact key_unique hkey.unquoted hother.unquoted hsome hsome'

theorem leadsIn_lead {other lead : List Char} (hkey : IsWord key) (hlead : IsLead other lead)
    (xs behind behind' : List Char) :
    leadsIn key xs (lead ++ behind) = leadsIn key xs (lead ++ behind') := by
  obtain ⟨q, q', gap, gap', _, _, _, _, rfl⟩ := hlead
  have h := leadsIn_arrow (hkey.notMem (by decide)) xs (q :: (other ++ q' :: gap)) (gap' ++ behind) (gap' ++ behind')
  simpa using h

/-- What follows a lead does not matter to the leads that start in front of it or in it. -/
theorem leadsIn_append_lead {other lead : List Char} (hkey : IsWord key) (hother : IsWord other)
    (hlead : IsLead other lead) (xs behind behind' : List Char) :
    leadsIn key (xs ++ lead) behind = leadsIn key (xs ++ lead) behind' := by
  rw [leadsIn_append, leadsIn_append, leadsIn_lead hkey hlead xs behind behind']
  congr 1
  obtain ⟨q, q', gap, gap', _, _, _, _, rfl⟩ := id hlead
  have hself := isSome_afterArrow?_arrow (hkey.notMem (by decide)) (q :: (other ++ q' :: gap))
    (gap' ++ behind) (gap' ++ behind')
  have htail := leadsIn_tail hkey.unquoted (hkey.notMem (by decide)) hother.unquoted hlead
  unfold leadsIn at htail ⊢
  rw [Text.hitsIn, Text.hitsIn, htail, htail]
  simp only [List.append_assoc, List.cons_append] at hself ⊢
  rw [hself]

/-! ## Leads and values -/

theorem IsLead.ne_nil {lead : List Char} (h : IsLead key lead) (rest : List Char) :
    lead ++ rest ≠ [] := by
  obtain ⟨q, _, _, _, _, _, _, _, rfl⟩ := h
  exact List.cons_ne_nil _ _

theorem lead_unique {lead value lead' value' : List Char} (hlead : IsLead key lead)
    (hlead' : IsLead key lead') (hdark : StartsDark value) (hdark' : StartsDark value')
    (h : lead ++ value = lead' ++ value') : lead = lead' ∧ value = value' := by
  have hread := afterArrow?_eq_some_iff.2 ⟨lead, hlead, rfl, hdark⟩
  have hread' := afterArrow?_eq_some_iff.2 ⟨lead', hlead', rfl, hdark'⟩
  rw [h, hread'] at hread
  obtain rfl := Option.some.inj hread
  exact ⟨List.append_cancel_right h, rfl⟩

theorem isSome_iff_exists_lead {cs : List Char} :
    (afterArrow? key cs).isSome = true ↔
      ∃ lead value, IsLead key lead ∧ cs = lead ++ value ∧ StartsDark value := by
  rw [Option.isSome_iff_exists]
  constructor
  · rintro ⟨value, h⟩
    obtain ⟨lead, hlead, hcut, hdark⟩ := afterArrow?_eq_some_iff.1 h
    exact ⟨lead, value, hlead, hcut, hdark⟩
  · rintro ⟨lead, value, hlead, hcut, hdark⟩
    exact ⟨value, afterArrow?_eq_some_iff.2 ⟨lead, hlead, hcut, hdark⟩⟩

/-- Whether a value with a lead in it starts dark is not up to what follows the lead. -/
theorem startsDark_append_lead {mid lead rest : List Char} (hlead : IsLead key lead)
    (h : StartsDark (mid ++ (lead ++ rest))) (rest' : List Char) :
    StartsDark (mid ++ (lead ++ rest')) := by
  cases mid with
  | nil =>
      obtain ⟨q, _, _, _, _, _, _, _, rfl⟩ := hlead
      exact h
  | cons m mid => exact h

theorem afterArrow?_append {cs value : List Char} (h : afterArrow? key cs = some value)
    (hne : value ≠ []) (rest : List Char) :
    afterArrow? key (cs ++ rest) = some (value ++ rest) := by
  obtain ⟨lead, hlead, rfl, hdark⟩ := afterArrow?_eq_some_iff.1 h
  refine afterArrow?_eq_some_iff.2 ⟨lead, hlead, List.append_assoc _ _ _, ?_⟩
  cases value with
  | nil => exact absurd rfl hne
  | cons v value => exact hdark

end Resettle.ConnectionBlock
