import Resettle.Proofs.ConnectionBlock.OwnBlock
import Resettle.Proofs.ConnectionBlock.OwnLines

/-!
# Patching a configuration again

A patch leaves a configuration in which the block of the driver is found again, so it can be
patched once more.  The second patch changes nothing just if all entries of the block are settled,
which is the case if each entry had a line of its own and no literal holds a line feed or a
comment.
-/

namespace Resettle.ConnectionBlock

/-! ## Headers that stay -/

variable {driver : List Char}

theorem isSome_header?_iff {cs : List Char} :
    (header? driver cs).isSome = true ↔
      ∃ lead inner, IsLead driver lead ∧ cs = lead ++ '[' :: inner := by
  rw [Option.isSome_iff_exists]
  constructor
  · rintro ⟨⟨header, inner⟩, h⟩
    obtain ⟨lead, hlead, rfl, rfl⟩ := header?_eq_some_iff.1 h
    exact ⟨lead, inner, hlead, by simp⟩
  · rintro ⟨lead, inner, hlead, rfl⟩
    exact ⟨(lead ++ ['['], inner), header?_eq_some_iff.2 ⟨lead, hlead, rfl, by simp⟩⟩

theorem IsLead.notMem_bracket {lead : List Char} (h : IsLead driver lead) (hdriver : IsWord driver) :
    '[' ∉ lead := by
  obtain ⟨q, q', gap, gap', hq, hq', hgap, hgap', rfl⟩ := h
  have hstem : '[' ∉ q :: (driver ++ q' :: gap) :=
    IsQuoted.notMem ⟨q, q', gap, hq, hq', hgap, rfl⟩ (hdriver.notMem (by decide))
      (by decide) (by decide)
  have hblank : '[' ∉ gap' := fun hmem => absurd (hgap' _ hmem) (by decide)
  simp only [List.mem_cons, List.mem_append, not_or] at hstem ⊢
  exact ⟨hstem.1, hstem.2.1, hstem.2.2.1, hstem.2.2.2, by decide, by decide, hblank⟩

/-- What follows a bracket does not matter to a header that starts in front of it. -/
theorem isSome_header?_bracket (hdriver : IsWord driver) (front inner inner' : List Char) :
    (header? driver (front ++ '[' :: inner)).isSome =
      (header? driver (front ++ '[' :: inner')).isSome := by
  have himp : ∀ inner inner', (header? driver (front ++ '[' :: inner)).isSome = true →
      (header? driver (front ++ '[' :: inner')).isSome = true := by
    intro inner inner' h
    obtain ⟨lead, rest, hlead, hcut⟩ := isSome_header?_iff.1 h
    rcases List.append_eq_append_iff.1 hcut with ⟨extra, rfl, hover⟩ | ⟨extra, rfl, hover⟩
    · cases extra with
      | nil => exact isSome_header?_iff.2 ⟨_, inner', hlead, by simp⟩
      | cons o extra =>
          obtain ⟨rfl, -⟩ := List.cons.inj hover
          exact absurd (by simp) (hlead.notMem_bracket hdriver)
    · cases extra with
      | nil => exact isSome_header?_iff.2 ⟨lead, inner', hlead, by simp⟩
      | cons o extra =>
          obtain ⟨rfl, rfl⟩ := List.cons.inj hover
          exact isSome_header?_iff.2 ⟨lead, extra ++ '[' :: inner', hlead, by simp⟩
  exact Bool.eq_iff_iff.2 ⟨himp _ _, himp _ _⟩

/-- The first header of a configuration is found whatever follows it. -/
theorem search_header? (hdriver : IsWord driver) {content before header inner : List Char}
    (h : Text.search (header? driver) content = some (before, header, inner)) (inner' : List Char) :
    Text.search (header? driver) (before ++ (header ++ inner')) =
      some (before, header, inner') := by
  obtain ⟨rest, -, hread, hfirst⟩ := (Text.search_eq_some_iff _).1 h
  obtain ⟨lead, hlead, rfl, rfl⟩ := header?_eq_some_iff.1 hread
  refine (Text.search_eq_some_iff _).2
    ⟨_, rfl, header?_eq_some_iff.2 ⟨lead, hlead, rfl, rfl⟩, ?_⟩
  rw [← hfirst]
  refine Text.hitsIn_congr _ fun c ys _ => ?_
  have h := isSome_header?_bracket hdriver (c :: (ys ++ lead)) inner' inner
  simpa using h

/-! ## Footers that stay -/

theorem isSome_footer?_iff {cs : List Char} :
    (footer? cs).isSome = true ↔
      ∃ gap after, (∀ c ∈ gap, Text.isBlank c = true) ∧ cs = '\n' :: (gap ++ ']' :: ',' :: after) := by
  rw [Option.isSome_iff_exists]
  constructor
  · rintro ⟨⟨footer, after⟩, h⟩
    obtain ⟨gap, hgap, rfl, rfl⟩ := footer?_eq_some_iff.1 h
    exact ⟨gap, after, hgap, by simp⟩
  · rintro ⟨gap, after, hgap, rfl⟩
    exact ⟨('\n' :: (gap ++ [']', ',']), after), footer?_eq_some_iff.2 ⟨gap, hgap, rfl, by simp⟩⟩

theorem isSome_footer?_append {cs : List Char} (h : (footer? cs).isSome = true)
    (behind : List Char) : (footer? (cs ++ behind)).isSome = true := by
  obtain ⟨gap, after, hgap, rfl⟩ := isSome_footer?_iff.1 h
  exact isSome_footer?_iff.2 ⟨gap, after ++ behind, hgap, by simp⟩

/-- A footer that starts in front of blanks and a quote, a letter or a digit ends in front of
them. -/
theorem isSome_footer?_dark (front : List Char) {blanks : List Char} {d : Char}
    (hblanks : ∀ c ∈ blanks, Text.isBlank c = true) (hd : Text.isBlank d = false)
    (hbracket : d ≠ ']') (hcomma : d ≠ ',') (behind : List Char) :
    (footer? (front ++ (blanks ++ d :: behind))).isSome = (footer? front).isSome := by
  refine Bool.eq_iff_iff.2 ⟨fun h => ?_, fun h => isSome_footer?_append h _⟩
  obtain ⟨gap, after, hgap, hcut⟩ := isSome_footer?_iff.1 h
  have hcut' : front ++ (blanks ++ d :: behind) = '\n' :: (gap ++ [']', ',']) ++ after := by
    rw [hcut]
    simp
  rcases List.append_eq_append_iff.1 hcut' with ⟨extra, hover, hrest⟩ | ⟨extra, rfl, -⟩
  · rcases List.eq_nil_or_concat extra with rfl | ⟨extra, e, rfl⟩
    · rw [List.append_nil] at hover
      exact isSome_footer?_iff.2 ⟨gap, [], hgap, by simp [← hover]⟩
    · -- The part of the footer behind the front ends in its comma, so it reaches over the blanks.
      have hlast : '\n' :: (gap ++ [']', ',']) = ('\n' :: (gap ++ [']'])) ++ [','] := by simp
      have hends := hlast.symm.trans hover
      rw [List.concat_eq_append, ← List.append_assoc] at hends
      obtain rfl : ',' = e := List.cons.inj (List.append_inj' hends rfl).2 |>.1
      have hcomma' : ',' ∉ blanks := fun hmem => absurd (hblanks _ hmem) (by decide)
      have hmem : d ∈ extra.concat ',' := by
        rcases List.append_eq_append_iff.1 hrest with ⟨x, hx, hdx⟩ | ⟨x, rfl, -⟩
        · cases x with
          | nil =>
              rw [List.append_nil] at hx
              exact absurd (by simp [← hx]) hcomma'
          | cons o x =>
              obtain ⟨rfl, -⟩ := List.cons.inj hdx
              rw [hx]
              simp
        · exact absurd (by simp) hcomma'
      have hfooter : d ∈ '\n' :: (gap ++ [']', ',']) := hover ▸ List.mem_append_right _ hmem
      simp only [List.mem_cons, List.mem_append, List.not_mem_nil, or_false] at hfooter
      rcases hfooter with rfl | hmem | rfl | rfl
      · exact absurd hd (by decide)
      · rw [hgap d hmem] at hd
        cases hd
      · exact absurd rfl hbracket
      · exact absurd rfl hcomma
  · exact isSome_footer?_iff.2 ⟨gap, extra, hgap, by simp⟩

def footersIn (cs behind : List Char) : Nat :=
  Text.hitsIn footer? cs behind

theorem footersIn_append (xs ys behind : List Char) :
    footersIn (xs ++ ys) behind = footersIn xs (ys ++ behind) + footersIn ys behind :=
  Text.hitsIn_append _ xs ys behind

theorem footersIn_eq_zero_iff {cs behind : List Char} :
    footersIn cs behind = 0 ↔
      ∀ c ys, c :: ys <:+ cs → (footer? (c :: (ys ++ behind))).isSome = false :=
  Text.hitsIn_eq_zero_iff_isSome _

theorem footersIn_of_notMem {cs : List Char} (h : '\n' ∉ cs) (behind : List Char) :
    footersIn cs behind = 0 := by
  rw [footersIn_eq_zero_iff]
  intro c ys hys
  rw [Bool.eq_false_iff]
  intro hsome
  obtain ⟨_, _, -, hcut⟩ := isSome_footer?_iff.1 hsome
  obtain ⟨rfl, -⟩ := List.cons.inj hcut
  exact h (hys.subset List.mem_cons_self)

theorem footersIn_of_bracket_notMem {cs : List Char} (h : ']' ∉ cs) : footersIn cs [] = 0 := by
  rw [footersIn_eq_zero_iff]
  intro c ys hys
  rw [List.append_nil, Bool.eq_false_iff]
  intro hsome
  obtain ⟨gap, after, -, hcut⟩ := isSome_footer?_iff.1 hsome
  exact h (hys.subset (hcut ▸ by simp))

/-- No footer comes up in front of blanks and a quote, a letter or a digit. -/
theorem footersIn_dark {cs behind blanks : List Char} {d : Char} (h : footersIn cs behind = 0)
    (hblanks : ∀ c ∈ blanks, Text.isBlank c = true) (hd : d = '\'' ∨ isPlainChar d = true)
    (behind' : List Char) : footersIn cs (blanks ++ d :: behind') = 0 := by
  have hdark : Text.isBlank d = false ∧ d ≠ ']' ∧ d ≠ ',' := by
    rcases hd with rfl | hd
    · decide
    · refine ⟨isBlank_eq_false_of_isPlainChar hd, ?_, ?_⟩ <;> rintro rfl <;> exact absurd hd (by decide)
  rw [footersIn_eq_zero_iff] at h ⊢
  intro c ys hys
  have hnone := isSome_footer?_dark (c :: ys) hblanks hdark.1 hdark.2.1 hdark.2.2 behind'
  rw [List.cons_append] at hnone
  rw [hnone, Bool.eq_false_iff]
  intro hsome
  have hold := h c ys hys
  have hnew := isSome_footer?_append hsome behind
  rw [List.cons_append, hold] at hnew
  cases hnew

variable {indent body : List Char} {us : List (String × Scalar)}

/-- An update whose literal is on one line brings no footer into the body. -/
theorem footersIn_step {u : String × Scalar} {behind : List Char}
    (h : footersIn body behind = 0) (hindent : ∀ c ∈ indent, Text.isBlank c = true)
    (hword : IsWord u.1.toList) (hfeed : '\n' ∉ u.2.literal.toList) :
    footersIn (step indent body u) behind = 0 := by
  rcases step_cases indent body u with
    ⟨-, hstep⟩ | ⟨front, lead, old, more, hfirst, -, -, hstep⟩
  · have hblank : ∀ c ∈ '\n' :: indent, Text.isBlank c = true :=
      List.forall_mem_cons.2 ⟨by decide, hindent⟩
    have hbracket : ']' ∉ '\n' :: indent := fun hmem => absurd (hblank _ hmem) (by decide)
    have hkey : '\n' ∉ u.1.toList := hword.notMem (by decide)
    have hentry : '\n' ∉ newLead u.1.toList ++ (u.2.literal.toList ++ [',']) := by
      simp [newLead, hkey, hfeed]
    have hsplit : step indent body u = body ++
        (('\n' :: indent) ++ (newLead u.1.toList ++ (u.2.literal.toList ++ [',']))) := by
      rw [hstep, entryLine_eq, List.cons_append]
    rw [hsplit, footersIn_append, footersIn_append ('\n' :: indent), footersIn_of_notMem hentry,
      Nat.add_zero, Nat.add_eq_zero_iff]
    have hnone := footersIn_of_bracket_notMem hbracket
    refine ⟨?_, footersIn_dark hnone (List.forall_mem_nil _) (.inl rfl) _⟩
    rw [List.append_assoc]
    exact footersIn_dark h hblank (.inl rfl) _
  · obtain ⟨d, rest, hcut, hd⟩ := u.2.exists_head_literal
    have hvalue : footersIn (u.2.literal.toList ++ [',']) (more ++ behind) = 0 :=
      footersIn_of_notMem (by simp [hfeed]) _
    have hsplit : step indent body u =
        (front ++ lead) ++ ((u.2.literal.toList ++ [',']) ++ more) := by
      rw [hstep]
      simp
    rw [hfirst.cut, ← List.append_assoc, footersIn_append, footersIn_append old,
      Nat.add_eq_zero_iff, Nat.add_eq_zero_iff] at h
    rw [hsplit, footersIn_append, footersIn_append _ more, hvalue, h.2.2, Nat.add_zero, hcut]
    exact footersIn_dark h.1 (List.forall_mem_nil _) hd _

theorem footersIn_steps {behind : List Char} (h : footersIn body behind = 0)
    (hindent : ∀ c ∈ indent, Text.isBlank c = true) (hwords : ∀ u ∈ us, IsWord u.1.toList)
    (hfeeds : ∀ u ∈ us, '\n' ∉ u.2.literal.toList) :
    footersIn (steps indent body us) behind = 0 := by
  induction us generalizing body with
  | nil => exact h
  | cons u us ih =>
      obtain ⟨hword, hwords⟩ := List.forall_mem_cons.1 hwords
      obtain ⟨hfeed, hfeeds⟩ := List.forall_mem_cons.1 hfeeds
      exact ih (footersIn_step h hindent hword hfeed) hwords hfeeds

/-! ## Blocks that are found again -/

/-- Whatever the body of a block is exchanged for, the block is found again, and with the same
footer if no footer starts in the new body. -/
theorem exists_cut {content : List Char} {c : Cut} (hdriver : IsWord driver)
    (h : cut? content driver = some c) (body : List Char) :
    ∃ c', cut? (c.before ++ c.header ++ body ++ c.footer ++ c.after) driver = some c' ∧
      (footersIn body (c.footer ++ c.after) = 0 → c'.body = body) := by
  obtain ⟨hheader, hfooter⟩ := cut?_eq_some_iff.1 h
  obtain ⟨rest, -, hread, -⟩ := (Text.search_eq_some_iff _).1 hfooter
  obtain ⟨gap, hgap, hline, rfl⟩ := footer?_eq_some_iff.1 hread
  have hheader' := search_header? hdriver hheader (body ++ (c.footer ++ c.after))
  have hsplit : c.before ++ c.header ++ body ++ c.footer ++ c.after =
      c.before ++ (c.header ++ (body ++ (c.footer ++ c.after))) := by simp
  have hfound : Text.search footer? (body ++ (c.footer ++ c.after)) ≠ none := by
    intro hnone
    have hhits := ((Text.search_eq_none_iff _).1 hnone).1
    rw [Text.hitsIn_append, Nat.add_eq_zero_iff, hline] at hhits
    have hno := (Text.hitsIn_eq_zero_iff _).1 hhits.2 _ _ (List.suffix_refl _)
    rw [List.append_nil] at hno
    rw [hline] at hread
    exact absurd (hno.symm.trans hread) (by simp)
  obtain ⟨⟨body', footer, after⟩, hfooter'⟩ := Option.ne_none_iff_exists'.1 hfound
  refine ⟨⟨c.before, c.header, body', footer, after⟩, ?_, fun hnone => ?_⟩
  · rw [hsplit]
    simp only [cut?, hheader', hfooter', Option.bind_eq_bind, Option.bind_some, Option.pure_def]
  · have hsame : Text.search footer? (body ++ (c.footer ++ c.after)) =
        some (body, c.footer, c.after) :=
      (Text.search_eq_some_iff _).2 ⟨_, rfl, hread, hnone⟩
    rw [hfooter'] at hsame
    exact congrArg Prod.fst (Option.some.inj hsame)

/-! ## Patches that change nothing -/

/-- The block of the driver has every update's entry as the update would write it. -/
def SettledIn (content driver : String) (us : List (String × Scalar)) : Prop :=
  ∃ c, cut? content.toList driver.toList = some c ∧ ∀ u ∈ us, Settled c.body u

/-- The block of the driver has its entries on lines of their own. -/
def OwnLinesIn (content driver : String) (us : List (String × Scalar)) : Prop :=
  ∃ c, cut? content.toList driver.toList = some c ∧ OwnLines us c.body

instance (content driver : String) (us : List (String × Scalar)) :
    Decidable (OwnLinesIn content driver us) :=
  decidable_of_iff (∃ c ∈ cut? content.toList driver.toList, OwnLines us c.body) Iff.rfl

/-- A literal that is found again as it was written: on one line and without a comment. -/
def ReadsBack (v : Scalar) : Prop :=
  '\n' ∉ v.literal.toList ∧ hasComment v.literal.toList = false

instance (v : Scalar) : Decidable (ReadsBack v) :=
  inferInstanceAs (Decidable (_ ∧ _))

variable {content driver out : String}

theorem patch?_eq_some_iff :
    patch? content driver us = some out ↔
      ∃ c, cut? content.toList driver.toList = some c ∧
        out.toList = c.before ++ c.header ++ steps (entryIndent c.body) c.body us ++ c.footer ++
          c.after := by
  simp only [patch?, Option.bind_eq_bind, Option.bind_eq_some_iff, Option.pure_def,
    Option.some.injEq, setEntries_eq_steps]
  constructor
  · rintro ⟨c, hcut, rfl⟩
    exact ⟨c, hcut, String.toList_ofList⟩
  · rintro ⟨c, hcut, hout⟩
    exact ⟨c, hcut, by rw [← hout, String.ofList_toList]⟩

theorem exists_patch?_again (hdriver : IsWord driver.toList)
    (h : patch? content driver us = some out) : ∃ twice, patch? out driver us = some twice := by
  obtain ⟨c, hcut, hout⟩ := patch?_eq_some_iff.1 h
  obtain ⟨c', hcut', -⟩ := exists_cut hdriver hcut (steps (entryIndent c.body) c.body us)
  rw [← hout] at hcut'
  exact ⟨_, patch?_of_cut hcut' us⟩

/-- A patch changes nothing just if the body of the block stays as it is. -/
theorem patch?_eq_self_iff :
    patch? content driver us = some content ↔
      ∃ c, cut? content.toList driver.toList = some c ∧
        steps (entryIndent c.body) c.body us = c.body := by
  rw [patch?_eq_some_iff]
  refine exists_congr fun c => and_congr_right fun hcut => ?_
  have hcontent := (cut?_eq_some hcut).1
  rw [hcontent, Cut.inner]
  constructor
  · intro h
    simp only [List.append_assoc, List.append_cancel_left_eq] at h
    rw [← List.append_assoc, ← List.append_assoc] at h
    exact (List.append_cancel_right (List.append_cancel_right h)).symm
  · intro h
    rw [h]
    simp

theorem SettledIn.patch?_eq_self (h : SettledIn content driver us) :
    patch? content driver us = some content := by
  obtain ⟨c, hcut, hsettled⟩ := h
  exact patch?_eq_self_iff.2
    ⟨c, hcut, steps_eq_of_forall fun u hu => (hsettled u hu).step_eq _⟩

/-- Quiet updates change nothing just if all entries are settled. -/
theorem Quiet.patch?_eq_self_iff (h : Quiet us) :
    patch? content driver us = some content ↔ SettledIn content driver us := by
  rw [ConnectionBlock.patch?_eq_self_iff]
  exact exists_congr fun c => and_congr_right fun _ =>
    h.steps_eq_iff (entryIndent_spec c.body).1

/-- Where entries stood on lines of their own, quiet updates leave them settled just if every
literal reads back. -/
theorem OwnLinesIn.settledIn_iff (h : OwnLinesIn content driver us) (hquiet : Quiet us)
    (hdriver : IsWord driver.toList) (hpatch : patch? content driver us = some out) :
    SettledIn out driver us ↔ ∀ u ∈ us, ReadsBack u.2 := by
  constructor
  · rintro ⟨_, -, hsettled⟩ u hu
    exact ⟨(hsettled u hu).oneLine, (hsettled u hu).uncommented⟩
  · intro hreads
    obtain ⟨c, hcut, hlines⟩ := h
    obtain ⟨c', hcut', hout⟩ := patch?_eq_some_iff.1 hpatch
    obtain rfl : c = c' := Option.some.inj (hcut.symm.trans hcut')
    have hindent := (entryIndent_spec c.body).1
    have hfooter := (Text.search_eq_some_iff _).1 (cut?_eq_some_iff.1 hcut).2
    obtain ⟨rest, hinner, -, hnone⟩ := hfooter
    rw [Cut.inner, List.append_assoc] at hinner
    rw [← List.append_cancel_left hinner] at hnone
    have hnone' := footersIn_steps hnone hindent hquiet.words fun u hu => (hreads u hu).1
    obtain ⟨c', hfound, hbody⟩ := exists_cut hdriver hcut (steps (entryIndent c.body) c.body us)
    rw [← hout] at hfound
    refine ⟨c', hfound, fun u hu => ⟨?_, (hreads u hu).1, (hreads u hu).2⟩⟩
    rw [hbody hnone']
    exact hlines.written hquiet hindent u hu

end Resettle.ConnectionBlock
