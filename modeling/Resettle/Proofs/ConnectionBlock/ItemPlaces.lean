import Resettle.Proofs.ConnectionBlock.OwnItems

/-!
# Places of several settings

An update finds its place in a block if the first lead of its key is the one of an item of its own,
which an edit of one line can exchange, or if no lead of the key is found and the last item of the
block has its comma.  An update that finds its place leaves the places of the others.
-/

namespace Resettle.ConnectionBlock

open Php

variable {key : String} {indent body rest front lead old more : List Char}

/-! ## Updates that find a place -/

/-- The first lead of a key is the one of an item of its own, and the edit gives up its value. -/
structure Found (key : String) (body rest front lead old more : List Char) : Prop where
  first : FirstAt key.toList body front lead (old ++ more)
  givesUp : GivesUp old more
  place : Boundary front
  item : OwnItem key lead old (more ++ '\n' :: rest)

/-- A key has no lead, and an item can be added on a line at the end of the array. -/
structure Missing (key : String) (indent body rest : List Char) : Prop where
  noLead : leadsIn key.toList body [] = 0
  place : Boundary (body ++ ['\n'])
  atEnd : IsGap (Reader.start.marks rest)
  indented : ∀ c ∈ indent, Php.isSpace c = true

/-- An update of the key can be made by editing its item or by adding one. -/
def Settable (key : String) (indent body rest : List Char) : Prop :=
  (∃ front lead old more, Found key body rest front lead old more) ∨ Missing key indent body rest

theorem isBlank_of_isSpace {c : Char} (h : Php.isSpace c = true) : Text.isBlank c = true := by
  simp only [Php.isSpace, Bool.or_eq_true, beq_iff_eq] at h
  rcases h with ((rfl | rfl) | rfl) | rfl <;> decide

/-! ## New leads -/

theorem isVerbatim_of_isKeyChar {c : Char} (h : isKeyChar c = true) : isVerbatim c = true := by
  have hspecial : ['\'', '"', '\\', '$'].all (fun d => !isKeyChar d) = true := by decide
  have hne : ∀ d ∈ ['\'', '"', '\\', '$'], c ≠ d := by
    intro d hd heq
    have hc := List.all_eq_true.1 hspecial d hd
    rw [← heq, h] at hc
    cases hc
  simp only [List.forall_mem_cons] at hne
  simp [isVerbatim, hne]

theorem forall_isVerbatim (hword : IsWord key.toList) : ∀ c ∈ key.toList, isVerbatim c = true :=
  fun c hc => isVerbatim_of_isKeyChar (List.all_eq_true.1 hword.2 c hc)

theorem newLead_eq (key : List Char) :
    newLead key = ('\'' :: (key ++ ['\''])) ++ [' ', '=', '>', ' '] := by
  simp [newLead]

theorem staysQuoted_key (hword : IsWord key.toList) : Reader.StaysQuoted key.toList := by
  rw [← List.flatMap_singleton' key.toList]
  refine .flatMap fun c hc => ?_
  have hc := forall_isVerbatim hword c hc
  simp only [isVerbatim, Bool.and_eq_true, decide_eq_true_eq] at hc
  exact Reader.staysQuoted_singleton hc.1.1.1 hc.1.2

theorem marks_newLead (hword : IsWord key.toList) :
    Reader.start.marks (newLead key.toList) =
      ('\'' :: (key.toList ++ ['\''])).map .inner ++
        [.direct ' ', .direct '=', .direct '>', .direct ' '] := by
  have hquoted := staysQuoted_key hword
  rw [newLead_eq, Reader.marks_append, Reader.run_singleQuoted hquoted,
    Reader.marks_singleQuoted hquoted]
  rfl

theorem leadKey?_newLead (hword : IsWord key.toList) :
    leadKey? (Reader.start.marks (newLead key.toList)) = some key := by
  have harrow : arrow? (Reader.start.marks (newLead key.toList)) =
      some (('\'' :: (key.toList ++ ['\''])).map .inner ++ [.direct ' '], [.direct ' ']) := by
    rw [marks_newLead hword, arrow?_append_of_notMem]
    · rfl
    · intro hmem
      obtain ⟨_, -, heq⟩ := List.mem_map.1 hmem
      cases heq
  have hcode : (('\'' :: (key.toList ++ ['\''])).map Mark.inner).map Mark.code =
      '\'' :: (key.toList ++ ['\'']) := by
    rw [List.map_map]
    exact List.map_id _
  have htext : codeText (('\'' :: (key.toList ++ ['\''])).map .inner ++ [.direct ' ']) =
      '\'' :: (key.toList ++ ['\'']) := by
    rw [codeText_append_gap _ (by decide), codeText, hcode]
    exact Text.trimmed_eq_self rfl (by rw [← List.cons_append, List.getLast?_concat])
      (by decide) (by decide)
  have hkey : key? ('\'' :: (key.toList ++ ['\''])) = some key := by
    have hverbatim : key.toList.all isVerbatim = true :=
      List.all_eq_true.2 (forall_isVerbatim hword)
    simp [key?, hverbatim]
  have hgap : IsGap [.direct ' '] := by decide
  rw [leadKey?, harrow]
  simp only [Option.bind_eq_bind, Option.bind_some, if_pos hgap, htext, hkey]

theorem keyLead_newLead (hword : IsWord key.toList) : KeyLead key (newLead key.toList) where
  run := by
    rw [newLead_eq, Reader.run_append, Reader.run_singleQuoted (staysQuoted_key hword)]
    rfl
  key := leadKey?_newLead hword
  uncommented := by
    rw [marks_newLead hword]
    refine List.forall_mem_append.2 ⟨List.forall_mem_map.2 fun _ _ => rfl, ?_⟩
    decide
  noComma := by
    have hcomma : ',' ∉ key.toList := fun hmem =>
      absurd (List.all_eq_true.1 hword.2 _ hmem) (by decide)
    simp [newLead, hcomma]

theorem isItem_entryLine (hword : IsWord key.toList) (hindent : ∀ c ∈ indent, Php.isSpace c = true)
    (v : Scalar) : IsItem key v.literal.toList (entryLine indent key.toList v.literal.toList) := by
  have hitem := (keyLead_newLead hword).isItem v
  have hblank := boundary_of_forall_isSpace hindent
  have hmarks : Reader.start.marks indent = indent.map .direct :=
    Reader.marks_of_notMem fun c hc => notMem_special_of_isSpace (hindent c hc)
  rw [entryLine_eq]
  refine ⟨hblank.append hitem.boundary, ?_, ?_⟩
  · have hgap : IsGap (Reader.start.marks indent) := by
      rw [hmarks]
      exact List.forall_mem_map.2 hindent
    rw [hblank.marks_append, items?_gap_append hgap, hitem.items]
  · rw [hblank.marks_append, hmarks]
    refine List.forall_mem_append.2 ⟨?_, hitem.uncommented⟩
    exact List.forall_mem_map.2 fun c _ => rfl

/-! ## One update -/

variable {u v : String × Scalar}

theorem Found.step_eq (h : Found u.1 body rest front lead old more) (indent : List Char) :
    step indent body u = front ++ lead ++ (u.2.literal.toList ++ ',' :: more) :=
  h.givesUp.setEntry h.first indent _

theorem Found.sets (h : Found u.1 body rest front lead old more) (indent : List Char) :
    Sets u.1 u.2.literal.toList (body ++ '\n' :: rest)
      (step indent body u ++ '\n' :: rest) := by
  have hsets := h.item.sets h.place u.2
  have hbody : body ++ '\n' :: rest = front ++ (lead ++ old ++ (more ++ '\n' :: rest)) := by
    rw [h.first.cut]
    simp
  have hstep : step indent body u ++ '\n' :: rest =
      front ++ (lead ++ (u.2.literal.toList ++ [',']) ++ (more ++ '\n' :: rest)) := by
    rw [h.step_eq]
    simp
  rw [hbody, hstep]
  exact hsets

theorem Missing.step_eq (h : Missing u.1 indent body rest) :
    step indent body u = body ++ '\n' :: entryLine indent u.1.toList u.2.literal.toList := by
  have hnone : Text.search (entryAt? u.1.toList) body = none := by
    refine (Text.search_eq_none_iff _).2 ⟨?_, rfl⟩
    rw [hitsIn_entryAt?]
    exact h.noLead
  exact setEntry_of_search_none hnone _ _

theorem Missing.sets (h : Missing u.1 indent body rest) (hword : IsWord u.1.toList) :
    Sets u.1 u.2.literal.toList (body ++ '\n' :: rest)
      (step indent body u ++ '\n' :: rest) := by
  have hsets := (isItem_entryLine hword h.indented u.2).sets h.place h.atEnd
  rw [h.step_eq, List.append_assoc]
  exact hsets

theorem Settable.sets (h : Settable u.1 indent body rest) (hword : IsWord u.1.toList) :
    Sets u.1 u.2.literal.toList (body ++ '\n' :: rest)
      (step indent body u ++ '\n' :: rest) := by
  rcases h with ⟨front, lead, old, more, hfound⟩ | hmissing
  · exact hfound.sets indent
  · exact hmissing.sets hword

/-! ## The places of the other updates -/

variable {front' lead' old' more' mid value : List Char}

theorem not_isGap_of_isQuote {q : Char} (hq : IsQuote q) (cs : List Char) :
    ¬ IsGap (Reader.start.marks (q :: cs)) := by
  intro hgap
  have hmark : (Reader.start.step q).2 = [.inner q] := by
    rcases hq with rfl | rfl <;> rfl
  rw [Reader.marks_cons, hmark] at hgap
  have hspace := hgap (.inner q) List.mem_cons_self
  rcases hq with rfl | rfl <;> exact absurd hspace (by decide)

theorem not_isGap_of_isLead {other : List Char} (h : IsLead other lead) (cs : List Char) :
    ¬ IsGap (Reader.start.marks (lead ++ cs)) := by
  obtain ⟨q, _, _, _, hq, _, _, _, rfl⟩ := h
  exact not_isGap_of_isQuote hq _

/-- A lead at a place for an item stands behind what the edit of an item in front of it gives up. -/
theorem OwnItem.lead_behind {other behind : List Char} (h : OwnItem key lead old behind)
    (hmid : Boundary (lead ++ mid)) (hlead : IsLead other lead')
    (hcut : old ++ more = mid ++ (lead' ++ value)) :
    ∃ between, mid = old ++ between ∧ more = between ++ (lead' ++ value) := by
  rcases List.append_eq_append_iff.1 hcut with ⟨between, rfl, hmore⟩ | ⟨extra, rfl, hover⟩
  · exact ⟨between, rfl, hmore⟩
  · cases extra with
    | nil => exact ⟨[], by simp, by simpa using hover.symm⟩
    | cons c extra =>
        obtain ⟨q, _, _, _, hq, _, _, _, rfl⟩ := hlead
        obtain ⟨rfl, -⟩ := List.cons.inj hover
        exact absurd (h.isGap_of_boundary hmid) (not_isGap_of_isQuote hq extra)

/-- Between the end of an entry and a place for an item behind it the line ends. -/
theorem feed_mem_of_endsLine {other : List Char} (h : EndsLine (mid ++ (lead ++ value)))
    (hlead : IsLead other lead) (hrun : Reader.start.run mid = Reader.start) : '\n' ∈ mid := by
  obtain ⟨q, _, _, _, hq, _, _, _, rfl⟩ := hlead
  have hplain : isSpace q = false ∧ q ≠ '/' ∧ q ≠ '\n' := by
    rcases hq with rfl | rfl <;> decide
  rcases h with h | h
  · cases mid with
    | nil => exact absurd (h q rfl) hplain.2.2
    | cons c mid =>
        obtain rfl : c = '\n' := h c rfl
        exact List.mem_cons_self
  · obtain ⟨blanks, comment, -, hall, rfl⟩ := h.of_append_cons hplain.1 hplain.2.1
    by_contra hfeed
    have hblanks : Reader.start.run blanks = Reader.start := by
      refine Reader.run_of_notMem fun c hc => notMem_special_of_isSpace ?_
      have hspace := List.all_eq_true.1 hall c hc
      simp only [isSpace, Bool.or_eq_true, beq_iff_eq] at hspace
      rcases hspace with rfl | rfl <;> decide
    have hcomment : '\n' ∉ comment := fun hmem => hfeed (by simp [hmem])
    have hinside : ((⟨.lineComment, []⟩ : Reader).run comment).inLineComment = true :=
      Reader.inLineComment_run rfl hcomment
    have hsame : Reader.start.run (blanks ++ '/' :: '/' :: comment) =
        (⟨.lineComment, []⟩ : Reader).run comment := by
      rw [Reader.run_append, hblanks]
      rfl
    rw [← hsame, hrun] at hinside
    cases hinside

/-- Where an item stands behind another, the edit of either leaves the other's place. -/
theorem Found.lead_behind (h : Found u.1 body rest front lead old more)
    (h' : Found v.1 body rest front' lead' old' more') (hfront : front' = front ++ (lead ++ mid))
    (hcut : old ++ more = mid ++ (lead' ++ (old' ++ more'))) :
    ∃ between, mid = old ++ between ∧ more = between ++ (lead' ++ (old' ++ more')) ∧
      Boundary between := by
  have hplace : Boundary (lead ++ mid) := by
    have hplace := h'.place
    rw [hfront] at hplace
    exact hplace.of_append h.place.run
  obtain ⟨between, rfl, hmore⟩ := h.item.lead_behind hplace h'.first.isLead hcut
  refine ⟨between, rfl, hmore, ?_⟩
  rw [← List.append_assoc] at hplace
  exact hplace.of_append h.item.run_lead_old

theorem Found.set_behind (h : Found u.1 body rest front lead old more)
    (h' : Found v.1 body rest front' lead' old' more') (hword : IsWord v.1.toList)
    (hfront : front = front' ++ (lead' ++ mid))
    (hcut : old' ++ more' = mid ++ (lead ++ (old ++ more))) (literal : List Char) :
    ∃ more'', Found v.1 (front ++ lead ++ (literal ++ ',' :: more)) rest front' lead' old' more'' := by
  obtain ⟨between, rfl, rfl, hbetween⟩ := h'.lead_behind h hfront hcut
  obtain ⟨x, y, hfeed⟩ := List.append_of_mem
    (feed_mem_of_endsLine h'.givesUp.endsLine h.first.isLead hbetween.run)
  refine ⟨between ++ (lead ++ (literal ++ ',' :: more)), ⟨?_, h'.first.isLead, ?_, ?_⟩, ?_, h'.place,
    ⟨h'.item.keyLead, h'.item.run, h'.item.items, h'.item.uncommented, .inl ?_⟩⟩
  · rw [hfront]
    simp
  · obtain ⟨o, old', rfl⟩ := List.exists_cons_of_ne_nil h'.item.old_ne_nil
    exact h'.first.dark
  · rw [leadsIn_lead hword h'.first.isLead front' _]
    exact h'.first.first
  · have hgives := h'.givesUp
    rw [hfeed, List.append_assoc, List.cons_append] at hgives ⊢
    exact hgives.behind_feed _
  · rcases h'.item.ends with hfresh | hgap
    · exact hfresh
    · rw [List.append_assoc, hbetween.marks_append, List.append_assoc] at hgap
      exact absurd (isGap_append_iff.1 hgap).2 (not_isGap_of_isLead h.first.isLead _)

theorem Found.set_front (h : Found u.1 body rest front lead old more)
    (h' : Found v.1 body rest front' lead' old' more') (hword : IsWord u.1.toList)
    (hword' : IsWord v.1.toList) (hliteral : leadsIn v.1.toList u.2.literal.toList [] = 0)
    (hfront : front' = front ++ (lead ++ mid))
    (hcut : old ++ more = mid ++ (lead' ++ (old' ++ more'))) :
    ∃ front'', Found v.1 (front ++ lead ++ (u.2.literal.toList ++ ',' :: more)) rest front'' lead'
      old' more' := by
  obtain ⟨between, rfl, rfl, hbetween⟩ := h.lead_behind h' hfront hcut
  have hitem := h.item.keyLead.isItem u.2
  have hnew : front ++ lead ++ (u.2.literal.toList ++ ',' :: between) =
      front ++ ((lead ++ (u.2.literal.toList ++ [','])) ++ between) := by simp
  refine ⟨front ++ lead ++ (u.2.literal.toList ++ ',' :: between),
    ⟨by simp, h'.first.isLead, h'.first.dark, ?_⟩, h'.givesUp, ?_, h'.item⟩
  · have hzero := h'.first.first
    rw [hfront, ← List.append_assoc front lead, leadsIn_append, leadsIn_append _ old,
      Nat.add_eq_zero_iff, Nat.add_eq_zero_iff] at hzero
    obtain ⟨hlead, -, hbetween⟩ := hzero
    rw [leadsIn_append, leadsIn_literal (hword'.notMem (by decide)) hliteral, hbetween,
      leadsIn_append_lead hword' hword h.first.isLead front _ _, hlead]
  · rw [hnew]
    exact h.place.append (hitem.boundary.append hbetween)

theorem Found.set (h : Found u.1 body rest front lead old more)
    (h' : Found v.1 body rest front' lead' old' more') (hword : IsWord u.1.toList)
    (hword' : IsWord v.1.toList) (hne : u.1 ≠ v.1)
    (hliteral : leadsIn v.1.toList u.2.literal.toList [] = 0) :
    ∃ front'' more'', Found v.1 (front ++ lead ++ (u.2.literal.toList ++ ',' :: more)) rest front''
      lead' old' more'' := by
  have hcut := h.first.cut.symm.trans h'.first.cut
  rcases lead_order hword hword' h.first.isLead h'.first.isLead hcut with
    ⟨mid, hfront, hmid⟩ | rfl | ⟨mid, hfront, hmid⟩
  · obtain ⟨more'', hnew⟩ := h.set_behind h' hword' hfront hmid u.2.literal.toList
    exact ⟨front', more'', hnew⟩
  · have hsame := key_unique_of_isLead hword hword' h.first.isLead h'.first.isLead
      (List.append_cancel_left hcut)
    exact absurd (String.toList_inj.1 hsame) hne
  · obtain ⟨front'', hnew⟩ := h.set_front h' hword hword' hliteral hfront hmid
    exact ⟨front'', more', hnew⟩

/-- A key without a lead can be added after an item has been exchanged. -/
theorem Missing.set (h : Missing v.1 indent body rest)
    (h' : Found u.1 body rest front lead old more) (hword : IsWord u.1.toList)
    (hword' : IsWord v.1.toList) (hliteral : leadsIn v.1.toList u.2.literal.toList [] = 0) :
    Missing v.1 indent (front ++ lead ++ (u.2.literal.toList ++ ',' :: more)) rest := by
  have hitem := h'.item.keyLead.isItem u.2
  refine ⟨?_, ?_, h.atEnd, h.indented⟩
  · have hcount := h'.first.leadsIn_set hword' hword hliteral
    have hnone := h.noLead
    omega
  · have hplace := h.place
    have hold : body ++ ['\n'] = front ++ (lead ++ old ++ (more ++ ['\n'])) := by
      rw [h'.first.cut]
      simp
    have hnew : front ++ lead ++ (u.2.literal.toList ++ ',' :: more) ++ ['\n'] =
        front ++ (lead ++ (u.2.literal.toList ++ [',']) ++ (more ++ ['\n'])) := by simp
    rw [hold] at hplace
    rw [hnew]
    exact h'.place.append (hitem.boundary.append
      ((hplace.of_append h'.place.run).of_append h'.item.run_lead_old))

theorem Found.add (h : Found v.1 body rest front lead old more)
    (h' : Missing u.1 indent body rest) (hword : IsWord v.1.toList) (line : List Char) :
    Found v.1 (body ++ '\n' :: line) rest front lead old (more ++ '\n' :: line) := by
  refine ⟨⟨?_, h.first.isLead, ?_, ?_⟩, h.givesUp.append_feed line, h.place,
    ⟨h.item.keyLead, h.item.run, h.item.items, h.item.uncommented, .inl ?_⟩⟩
  · rw [h.first.cut]
    simp
  · obtain ⟨o, old, rfl⟩ := List.exists_cons_of_ne_nil h.item.old_ne_nil
    exact h.first.dark
  · rw [leadsIn_lead hword h.first.isLead front _ (old ++ more)]
    exact h.first.first
  · rcases h.item.ends with hfresh | hgap
    · exact hfresh
    · -- The item is the last one, so it has the comma that lets another one follow.
      have hplace := h'.place
      have hbody : body ++ ['\n'] = front ++ (lead ++ old ++ (more ++ ['\n'])) := by
        rw [h.first.cut]
        simp
      have hcut : more ++ '\n' :: rest = (more ++ ['\n']) ++ rest := by simp
      rw [hcut, Reader.marks_append] at hgap
      rw [hbody] at hplace
      have hfresh := (hplace.of_append h.place.run).fresh
      rw [Reader.marks_append, h.item.run_lead_old] at hfresh
      exact hfresh.of_append_gap (isGap_append_iff.1 hgap).1

theorem leadsIn_of_ne {key other lead : List Char} (hkey : IsWord key) (hother : IsWord other)
    (hne : key ≠ other) (hlead : IsLead other lead) (behind : List Char) :
    leadsIn key lead behind = 0 :=
  (leadsIn_isLead hkey.unquoted (hkey.notMem (by decide)) hother.unquoted hlead behind).trans
    (if_neg hne.symm)

theorem leadsIn_entryLine {cs : List Char} (hword : IsWord u.1.toList) (hword' : IsWord v.1.toList)
    (hne : u.1 ≠ v.1) (hindent : ∀ c ∈ indent, Text.isBlank c = true)
    (hliteral : leadsIn v.1.toList u.2.literal.toList [] = 0) :
    leadsIn v.1.toList (cs ++ '\n' :: entryLine indent u.1.toList u.2.literal.toList) [] =
      leadsIn v.1.toList cs [] := by
  have hlead := leadsIn_of_ne hword' hword (fun heq => hne (String.toList_inj.1 heq.symm))
    (isLead_newLead u.1.toList) (u.2.literal.toList ++ [','])
  have hcut : cs ++ '\n' :: entryLine indent u.1.toList u.2.literal.toList =
      (cs ++ '\n' :: indent) ++ (newLead u.1.toList ++ (u.2.literal.toList ++ [','])) := by
    rw [entryLine_eq]
    simp
  have hvalue := leadsIn_literal (hword'.notMem (by decide)) hliteral [] []
  rw [hcut, leadsIn_append, List.append_nil, leadsIn_append_indent (hword'.notMem (by decide)) hindent (isLead_newLead _),
    leadsIn_append, List.append_nil, hlead, hvalue]
  rfl

theorem Missing.add (h : Missing v.1 indent body rest)
    (hword : IsWord u.1.toList) (hword' : IsWord v.1.toList) (hne : u.1 ≠ v.1)
    (hliteral : leadsIn v.1.toList u.2.literal.toList [] = 0) :
    Missing v.1 indent (body ++ '\n' :: entryLine indent u.1.toList u.2.literal.toList) rest := by
  have hfeed : Boundary ['\n'] := boundary_of_forall_isSpace (List.forall_mem_singleton.2 rfl)
  have hcut : body ++ '\n' :: entryLine indent u.1.toList u.2.literal.toList ++ ['\n'] =
      (body ++ ['\n']) ++ (entryLine indent u.1.toList u.2.literal.toList ++ ['\n']) := by simp
  refine ⟨?_, ?_, h.atEnd, h.indented⟩
  · rw [leadsIn_entryLine hword hword' hne (fun c hc => isBlank_of_isSpace (h.indented c hc)) hliteral]
    exact h.noLead
  · rw [hcut]
    exact h.place.append ((isItem_entryLine hword h.indented u.2).boundary.append hfeed)

theorem Settable.step (h : Settable v.1 indent body rest) (h' : Settable u.1 indent body rest)
    (hword : IsWord u.1.toList) (hword' : IsWord v.1.toList) (hne : u.1 ≠ v.1)
    (hliteral : leadsIn v.1.toList u.2.literal.toList [] = 0) :
    Settable v.1 indent (step indent body u) rest := by
  rcases h' with ⟨front, lead, old, more, h'⟩ | h'
  · rw [h'.step_eq]
    rcases h with ⟨front', lead', old', more', h⟩ | h
    · obtain ⟨front'', more'', hnew⟩ := h'.set h hword hword' hne hliteral
      exact .inl ⟨front'', lead', old', more'', hnew⟩
    · exact .inr (h.set h' hword hword' hliteral)
  · rw [h'.step_eq]
    rcases h with ⟨front', lead', old', more', h⟩ | h
    · exact .inl ⟨front', lead', old', _, h.add h' hword' _⟩
    · exact .inr (h.add hword hword' hne hliteral)

/-! ## Runs of updates -/

variable {us : List (String × Scalar)}

/-- The settings that updates make, as literals. -/
def settings (us : List (String × Scalar)) : List (String × List Char) :=
  us.map fun u => (u.1, u.2.literal.toList)

/-- A run of updates that find their places sets their keys one after the other. -/
theorem Quiet.items?_steps (hquiet : Quiet us) {items : List (String × List Char)}
    (hset : ∀ u ∈ us, Settable u.1 indent body rest)
    (hitems : items? (Reader.start.marks (body ++ '\n' :: rest)) = some items)
    (hcount : ∀ u ∈ us, (items.map Prod.fst).count u.1 ≤ 1) :
    ∃ items', items? (Reader.start.marks (steps indent body us ++ '\n' :: rest)) = some items' ∧
      Dictionary.ofList items' = (Dictionary.ofList items).insertMany (settings us) ∧
      comments (Reader.start.marks (steps indent body us ++ '\n' :: rest)) =
        comments (Reader.start.marks (body ++ '\n' :: rest)) ∧
      Reader.start.run (steps indent body us ++ '\n' :: rest) =
        Reader.start.run (body ++ '\n' :: rest) := by
  induction us generalizing body items with
  | nil => exact ⟨items, hitems, rfl, rfl, rfl⟩
  | cons u us ih =>
      have hu : u ∈ u :: us := List.mem_cons_self
      have hword := hquiet.words u hu
      have hsets := (hset u hu).sets hword
      obtain ⟨items', hitems', hinsert, hcounts⟩ := hsets.items items hitems (hcount u hu)
      have hne : ∀ v ∈ us, v.1 ≠ u.1 := fun v hv heq =>
        head_ne_of_nodup hquiet.distinct v hv (congrArg String.toList heq.symm)
      have hset' : ∀ v ∈ us, Settable v.1 indent (step indent body u) rest := by
        intro v hv
        have hmem := List.mem_cons_of_mem u hv
        exact (hset v hmem).step (hset u hu) hword (hquiet.words v hmem) (hne v hv).symm
          (hquiet.literals u hu v hmem)
      have hcount' : ∀ v ∈ us, (items'.map Prod.fst).count v.1 ≤ 1 := by
        intro v hv
        rw [hcounts v.1 (hne v hv)]
        exact hcount v (List.mem_cons_of_mem u hv)
      obtain ⟨items'', hitems'', hmany, hcomments, hrun⟩ :=
        ih hquiet.tail hset' hitems' hcount'
      refine ⟨items'', hitems'', ?_, hcomments.trans hsets.comments, hrun.trans hsets.run⟩
      rw [hmany, hinsert]
      rfl

end Resettle.ConnectionBlock
