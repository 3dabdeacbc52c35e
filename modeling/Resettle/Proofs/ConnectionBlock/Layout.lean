import Mathlib.Data.List.Nodup
import Resettle.Proofs.ConnectionBlock.Again
import Resettle.Proofs.ConnectionBlock.EntryLines
import Resettle.Proofs.Text.Pieces

/-!
# Layout of a patched block

A patch of a block of entry lines exchanges the values of the updated keys, each on its own line,
and adds lines for the keys that are missing, in the order of the updates and with the indentation
of the first line.  Every other line stays as it is, and so does the text around the block.
-/

namespace Resettle.ConnectionBlock

namespace EntryLine

def added (indent : List Char) (u : String × Scalar) : EntryLine where
  indent := indent
  key := u.1.toList
  lead := newLead u.1.toList
  value := u.2.literal.toList
  comment := []

/-- The line with the value that is set for its key, if there is one.  What is left of the comment
is up to `keep`. -/
def exchange (keep : List Char → List Char) (us : List (String × Scalar)) (l : EntryLine) :
    EntryLine :=
  match us.find? fun u => u.1.toList = l.key with
  | some u => { l with value := u.2.literal.toList, comment := keep l.comment }
  | none => l

end EntryLine

/-- The lines with the values exchanged, and behind them the lines of the keys that are missing. -/
def patchedLines (keep : List Char → List Char) (indent : List Char) (lines : List EntryLine)
    (us : List (String × Scalar)) : List EntryLine :=
  lines.map (EntryLine.exchange keep us) ++
    (us.filter fun u => u.1.toList ∉ lines.map EntryLine.key).map (EntryLine.added indent)

/-- The indentation of the first line. -/
def blockIndent : List EntryLine → List Char
  | [] => defaultIndent
  | l :: _ => l.indent

/-- Updates of names that occur once, with literals that are found again as they are written and
hold no lead of the names. -/
structure Tidy (us : List (String × Scalar)) : Prop where
  names : ∀ u ∈ us, IsName u.1.toList
  distinct : (us.map Prod.fst).Nodup
  literals : LeadFree us
  readsBack : ∀ u ∈ us, ReadsBack u.2

/-- Entry lines with a key each, in which leads of updated keys stand at the front only. -/
structure Fits (us : List (String × Scalar)) (lines : List EntryLine) : Prop where
  wellFormed : ∀ l ∈ lines, l.WellFormed
  spares : ∀ l ∈ lines, ∀ u ∈ us, l.Spares u.1.toList
  distinct : (lines.map EntryLine.key).Nodup

variable {keep : List Char → List Char} {indent : List Char} {lines : List EntryLine}
  {us : List (String × Scalar)} {u : String × Scalar} {l : EntryLine}

/-! ## One update after the other -/

theorem EntryLine.key_exchange (keep : List Char → List Char) (us : List (String × Scalar))
    (l : EntryLine) : (l.exchange keep us).key = l.key := by
  unfold exchange
  split <;> rfl

theorem keys_exchange (keep : List Char → List Char) (us : List (String × Scalar))
    (lines : List EntryLine) :
    (lines.map (EntryLine.exchange keep us)).map EntryLine.key = lines.map EntryLine.key := by
  rw [List.map_map]
  exact List.map_congr_left fun l _ => l.key_exchange keep us

theorem EntryLine.exchange_of_forall_ne (h : ∀ u ∈ us, u.1.toList ≠ l.key) :
    l.exchange keep us = l := by
  have hnone : us.find? (fun u => u.1.toList = l.key) = none :=
    List.find?_eq_none.2 fun u hu => by simpa using h u hu
  rw [exchange, hnone]

theorem EntryLine.exchange_cons_self (h : u.1.toList = l.key) :
    l.exchange keep (u :: us) =
      { l with value := u.2.literal.toList, comment := keep l.comment } := by
  rw [exchange, List.find?_cons_of_pos (by simpa using h)]

theorem EntryLine.exchange_cons_of_ne (h : u.1.toList ≠ l.key) :
    l.exchange keep (u :: us) = l.exchange keep us := by
  rw [exchange, List.find?_cons_of_neg (by simpa using h), exchange]

theorem EntryLine.exchange_exchange (h : ∀ v ∈ us, v.1.toList ≠ u.1.toList) :
    (l.exchange keep [u]).exchange keep us = l.exchange keep (u :: us) := by
  by_cases hkey : u.1.toList = l.key
  · rw [exchange_cons_self hkey, exchange_cons_self hkey]
    exact exchange_of_forall_ne fun v hv => hkey ▸ h v hv
  · have hnil : l.exchange keep [] = l := rfl
    rw [exchange_cons_of_ne hkey, exchange_cons_of_ne hkey, hnil]

theorem map_exchange_of_notMem (h : u.1.toList ∉ lines.map EntryLine.key) :
    lines.map (EntryLine.exchange keep [u]) = lines := by
  refine (List.map_congr_left fun l hl => ?_).trans (List.map_id lines)
  refine EntryLine.exchange_of_forall_ne (List.forall_mem_singleton.2 fun heq => h ?_)
  exact heq ▸ List.mem_map_of_mem hl

theorem patchedLines_nil : patchedLines keep indent lines [] = lines :=
  (List.append_nil _).trans (List.map_id lines)

theorem patchedLines_of_mem (h : u.1.toList ∈ lines.map EntryLine.key) :
    patchedLines keep indent lines [u] = lines.map (EntryLine.exchange keep [u]) := by
  rw [patchedLines, List.filter_cons_of_neg (by simpa using h)]
  exact List.append_nil _

theorem patchedLines_of_notMem (h : u.1.toList ∉ lines.map EntryLine.key) :
    patchedLines keep indent lines [u] = lines ++ [.added indent u] := by
  rw [patchedLines, map_exchange_of_notMem h, List.filter_cons_of_pos (by simpa using h)]
  rfl

theorem patchedLines_cons (h : ∀ v ∈ us, v.1.toList ≠ u.1.toList) :
    patchedLines keep indent (patchedLines keep indent lines [u]) us =
      patchedLines keep indent lines (u :: us) := by
  have hmap : (lines.map (EntryLine.exchange keep [u])).map (EntryLine.exchange keep us) =
      lines.map (EntryLine.exchange keep (u :: us)) := by
    rw [List.map_map]
    exact List.map_congr_left fun l _ => EntryLine.exchange_exchange h
  by_cases hu : u.1.toList ∈ lines.map EntryLine.key
  · rw [patchedLines_of_mem hu, patchedLines, hmap, keys_exchange, patchedLines,
      List.filter_cons_of_neg (by simpa using hu)]
  · have hsame : lines.map (EntryLine.exchange keep us) =
        lines.map (EntryLine.exchange keep (u :: us)) := by
      refine List.map_congr_left fun l hl => (EntryLine.exchange_cons_of_ne fun heq => hu ?_).symm
      exact heq ▸ List.mem_map_of_mem hl
    have hnew : (EntryLine.added indent u).exchange keep us = .added indent u :=
      EntryLine.exchange_of_forall_ne h
    have hrest : (us.filter fun v =>
        v.1.toList ∉ (lines ++ [EntryLine.added indent u]).map EntryLine.key) =
        us.filter fun v => v.1.toList ∉ lines.map EntryLine.key := by
      refine List.filter_congr fun v hv => ?_
      have hne : v.1.toList ≠ (EntryLine.added indent u).key := h v hv
      simp [hne]
    rw [patchedLines_of_notMem hu, patchedLines, hrest, List.map_append, hsame, List.map_cons,
      hnew, patchedLines, List.filter_cons_of_pos (by simpa using hu), List.append_assoc]
    rfl

/-! ## What an update does to the lines -/

theorem EntryLine.WellFormed.exchange_kept (h : l.WellFormed) (hreads : ∀ u ∈ us, ReadsBack u.2) :
    (l.exchange keptComment us).WellFormed := by
  unfold EntryLine.exchange
  split
  · next u hfound =>
      obtain ⟨hfeed, hcomment⟩ := hreads u (List.mem_of_find?_eq_some hfound)
      refine ⟨h.indent, h.isLead, h.unquoted, startsDark_scalar u.2, hcomment, ?_⟩
      have hline := h.oneLine
      have hkept : '\n' ∈ keptComment l.comment → '\n' ∈ l.comment :=
        fun hmem => (keptComment_suffix l.comment).subset hmem
      simp only [EntryLine.text, List.mem_append, List.mem_cons, not_or] at hline ⊢
      exact ⟨hline.1, hline.2.1, hfeed, hline.2.2.2.1, fun hmem => hline.2.2.2.2 (hkept hmem)⟩
  · exact h

theorem EntryLine.wellFormed_added (hname : IsName u.1.toList) (hreads : ReadsBack u.2)
    (hindent : ∀ c ∈ indent, Text.isBlank c = true) (hline : '\n' ∉ indent) :
    (EntryLine.added indent u).WellFormed where
  indent := hindent
  isLead := isLead_newLead _
  unquoted := hname.unquoted
  dark := startsDark_scalar u.2
  uncommented := hreads.2
  oneLine := by
    simp [EntryLine.text, EntryLine.added, newLead, hline, hname.oneLine, hreads.1]

theorem leadsIn_suffix {key cs tail : List Char} (htail : tail <:+ cs) (h : leadsIn key cs [] = 0) :
    leadsIn key tail [] = 0 := by
  obtain ⟨front, rfl⟩ := htail
  rw [leadsIn_append, Nat.add_eq_zero_iff] at h
  exact h.2

theorem EntryLine.Spares.exchange_kept {key : List Char} (h : l.Spares key)
    (hliterals : ∀ u ∈ us, leadsIn key u.2.literal.toList [] = 0) :
    (l.exchange keptComment us).Spares key := by
  unfold EntryLine.exchange
  split
  · next u hfound =>
      exact ⟨hliterals u (List.mem_of_find?_eq_some hfound),
        leadsIn_suffix (keptComment_suffix l.comment) h.comment⟩
  · exact h

theorem Tidy.tail (h : Tidy (u :: us)) : Tidy us where
  names := fun v hv => h.names v (List.mem_cons_of_mem _ hv)
  distinct := (List.nodup_cons.1 h.distinct).2
  literals := h.literals.tail
  readsBack := fun v hv => h.readsBack v (List.mem_cons_of_mem _ hv)

theorem Fits.patchedLines (h : Fits (u :: us) lines) (htidy : Tidy (u :: us))
    (hindent : ∀ c ∈ indent, Text.isBlank c = true) (hline : '\n' ∉ indent) :
    Fits us (patchedLines keptComment indent lines [u]) := by
  have hu : u ∈ u :: us := List.mem_cons_self
  have hreads := htidy.readsBack u hu
  have hliterals (v) (hv : v ∈ us) : leadsIn v.1.toList u.2.literal.toList [] = 0 :=
    htidy.literals u hu v (List.mem_cons_of_mem _ hv)
  have hspares (l) (hl : l ∈ lines) (v) (hv : v ∈ us) : l.Spares v.1.toList :=
    h.spares l hl v (List.mem_cons_of_mem _ hv)
  by_cases hkey : u.1.toList ∈ lines.map EntryLine.key
  · rw [patchedLines_of_mem hkey]
    refine ⟨List.forall_mem_map.2 fun l hl => ?_, List.forall_mem_map.2 fun l hl v hv => ?_, ?_⟩
    · exact (h.wellFormed l hl).exchange_kept (List.forall_mem_singleton.2 hreads)
    · exact (hspares l hl v hv).exchange_kept (List.forall_mem_singleton.2 (hliterals v hv))
    · rw [keys_exchange]
      exact h.distinct
  · rw [patchedLines_of_notMem hkey]
    refine ⟨List.forall_mem_append.2 ⟨h.wellFormed, List.forall_mem_singleton.2 ?_⟩,
      List.forall_mem_append.2 ⟨hspares, List.forall_mem_singleton.2 fun v hv => ?_⟩, ?_⟩
    · exact EntryLine.wellFormed_added (htidy.names u hu) hreads hindent hline
    · exact ⟨hliterals v hv, rfl⟩
    · rw [List.map_append, List.map_singleton, ← List.concat_eq_append]
      exact (List.nodup_concat _ _).2 ⟨hkey, h.distinct⟩

theorem step_bodyOf (h : Fits (u :: us) lines) (hname : IsName u.1.toList) (indent : List Char) :
    step indent (bodyOf lines) u = bodyOf (patchedLines keptComment indent lines [u]) := by
  have hspares (l) (hl : l ∈ lines) : l.Spares u.1.toList := h.spares l hl u List.mem_cons_self
  by_cases hkey : u.1.toList ∈ lines.map EntryLine.key
  · obtain ⟨l, hl, hsame⟩ := List.mem_map.1 hkey
    obtain ⟨front, back, rfl⟩ := List.append_of_mem hl
    have hdistinct := h.distinct
    rw [List.map_append, List.map_cons, List.nodup_middle, List.nodup_cons, List.mem_append,
      not_or] at hdistinct
    rw [hsame] at hdistinct
    rw [patchedLines_of_mem hkey, List.map_append, List.map_cons,
      map_exchange_of_notMem hdistinct.1.1, map_exchange_of_notMem hdistinct.1.2,
      EntryLine.exchange_cons_self hsame.symm, step]
    rw [← hsame] at hname hspares hdistinct ⊢
    exact setEntry_bodyOf hname h.wellFormed (fun l' hl' => hspares l' (List.mem_append_left _ hl'))
      hdistinct.1.1 indent _
  · have hnone := search_bodyOf_eq_none hname h.wellFormed hspares hkey
    rw [patchedLines_of_notMem hkey, bodyOf_append, step, setEntry_of_search_none hnone,
      entryLine_eq]
    simp [bodyOf, EntryLine.text, EntryLine.added]

theorem steps_bodyOf (hfits : Fits us lines) (htidy : Tidy us)
    (hindent : ∀ c ∈ indent, Text.isBlank c = true) (hline : '\n' ∉ indent) :
    steps indent (bodyOf lines) us = bodyOf (patchedLines keptComment indent lines us) := by
  induction us generalizing lines with
  | nil => rw [patchedLines_nil]; rfl
  | cons u us ih =>
      change steps indent (step indent (bodyOf lines) u) us = _
      have hne := head_ne_of_nodup htidy.distinct
      rw [step_bodyOf hfits (htidy.names u List.mem_cons_self),
        ih (hfits.patchedLines htidy hindent hline) htidy.tail,
        patchedLines_cons fun v hv => (hne v hv).symm]

/-! ## The indentation and the closing line -/

theorem EntryLine.WellFormed.exists_quote (h : l.WellFormed) :
    ∃ q rest, IsQuote q ∧ rest ≠ [] ∧ l.text = l.indent ++ q :: rest := by
  obtain ⟨q, q', gap, gap', hq, -, -, -, hlead⟩ := h.isLead
  refine ⟨q, l.key ++ q' :: (gap ++ '=' :: '>' :: gap') ++ (l.value ++ ',' :: l.comment), hq,
    by simp, ?_⟩
  rw [EntryLine.text, hlead]
  simp

theorem isEntryLine_append {q : Char} (hindent : ∀ c ∈ indent, Text.isBlank c = true)
    (hq : IsQuote q) (rest : List Char) :
    isEntryLine (indent ++ q :: rest) = true ∧
      (indent ++ q :: rest).takeWhile Text.isBlank = indent := by
  have hdark := hq.isBlank_eq_false
  have htrim : Text.trimStart (indent ++ q :: rest) = q :: rest :=
    trimStart_eq_iff.2 ⟨indent, hindent, rfl, fun c hc => Option.some.inj hc ▸ hdark⟩
  refine ⟨?_, ?_⟩
  · rw [isEntryLine, htrim, dropQuote?_eq_some_iff.2 ⟨q, hq, rfl⟩]
    rfl
  · rw [List.takeWhile_append_of_pos hindent, List.takeWhile_cons_of_neg (by simp [hdark]),
      List.append_nil]

theorem dropReturn_append {rest : List Char} (h : rest ≠ []) (indent : List Char) (q : Char) :
    ∃ rest', Text.dropReturn (indent ++ q :: rest) = indent ++ q :: rest' := by
  unfold Text.dropReturn
  split
  · refine ⟨rest.dropLast, ?_⟩
    rw [List.dropLast_append_of_ne_nil (List.cons_ne_nil q rest), List.dropLast_cons_of_ne_nil h]
  · exact ⟨rest, rfl⟩

theorem entryIndent_bodyOf (h : ∀ l ∈ lines, l.WellFormed) :
    entryIndent (bodyOf lines) = blockIndent lines := by
  cases lines with
  | nil => rfl
  | cons l lines =>
      have hl := h l List.mem_cons_self
      obtain ⟨q, rest, hq, hne, htext⟩ := hl.exists_quote
      -- The line in front of the first line feed is empty, and the next one is that of the entry.
      have hline : ∃ rest' more,
          Text.lines (l.text ++ bodyOf lines) = (l.indent ++ q :: rest') :: more := by
        cases lines with
        | nil =>
            refine ⟨rest, [], ?_⟩
            have hnil : bodyOf [] = [] := rfl
            rw [hnil, List.append_nil, Text.lines_of_notMem hl.oneLine (by simp [htext]), htext]
        | cons l' lines =>
            obtain ⟨rest', hrest⟩ := dropReturn_append hne l.indent q
            refine ⟨rest', Text.lines (l'.text ++ bodyOf lines), ?_⟩
            change Text.lines (l.text ++ '\n' :: (l'.text ++ bodyOf lines)) = _
            rw [Text.lines_append_feed hl.oneLine, htext, hrest]
      obtain ⟨rest', more, hmore⟩ := hline
      obtain ⟨hentry, hindent⟩ := isEntryLine_append hl.indent hq rest'
      have hlines : Text.lines (bodyOf (l :: lines)) =
          [] :: (l.indent ++ q :: rest') :: more := by
        change Text.lines ([] ++ '\n' :: (l.text ++ bodyOf lines)) = _
        rw [Text.lines_append_feed List.not_mem_nil, hmore]
        rfl
      have hnone : isEntryLine [] = false := rfl
      rw [entryIndent, hlines, List.find?_cons_of_neg (by simp [hnone]),
        List.find?_cons_of_pos hentry]
      exact hindent

theorem footersIn_bodyOf (h : ∀ l ∈ lines, l.WellFormed) (behind : List Char) :
    footersIn (bodyOf lines) behind = 0 := by
  induction lines with
  | nil => rfl
  | cons l lines ih =>
      obtain ⟨hl, hlines⟩ := List.forall_mem_cons.1 h
      obtain ⟨q, rest, hq, -, htext⟩ := hl.exists_quote
      have hplain : q ≠ ']' ∧ q ≠ ',' := by rcases hq with rfl | rfl <;> decide
      have hfeed : (footer? ('\n' :: (l.text ++ (bodyOf lines ++ behind)))).isSome = false := by
        have hdark := isSome_footer?_dark ['\n'] hl.indent hq.isBlank_eq_false hplain.1 hplain.2
          (rest ++ (bodyOf lines ++ behind))
        rw [htext, List.append_assoc]
        exact hdark
      have hrest : footersIn (l.text ++ bodyOf lines) behind = 0 := by
        rw [footersIn_append, footersIn_of_notMem hl.oneLine, ih hlines]
      change Text.hitsIn footer? ('\n' :: (l.text ++ bodyOf lines)) behind = 0
      rw [Text.hitsIn, List.append_assoc, hfeed, if_neg Bool.false_ne_true, Nat.zero_add]
      exact hrest

/-- The first header of the driver is followed by entry lines and a line that closes the block. -/
structure IsBlock (content driver : String) (before header : List Char) (lines : List EntryLine)
    (closing : List Char) : Prop where
  header : Text.search (header? driver.toList) content.toList =
    some (before, header, bodyOf lines ++ '\n' :: closing)
  closing : ∃ gap after, (∀ c ∈ gap, Text.isBlank c = true) ∧ closing = gap ++ ']' :: ',' :: after

variable {content driver : String} {before header closing : List Char}

/-! ## Patches -/

def withLines (before header : List Char) (lines : List EntryLine) (closing : List Char) : String :=
  String.ofList (before ++ header ++ bodyOf lines ++ '\n' :: closing)

theorem IsBlock.patch?_eq (hblock : IsBlock content driver before header lines closing)
    (hfits : Fits us lines) (htidy : Tidy us) :
    patch? content driver us = some (withLines before header
      (patchedLines keptComment (blockIndent lines) lines us) closing) := by
  obtain ⟨gap, after, hgap, rfl⟩ := hblock.closing
  have hfooter : Text.search footer? (bodyOf lines ++ '\n' :: (gap ++ ']' :: ',' :: after)) =
      some (bodyOf lines, '\n' :: (gap ++ [']', ',']), after) := by
    refine (Text.search_eq_some_iff _).2 ⟨_, rfl, ?_, footersIn_bodyOf hfits.wellFormed _⟩
    exact footer?_eq_some_iff.2 ⟨gap, hgap, rfl, by simp⟩
  have hcut : cut? content.toList driver.toList =
      some ⟨before, header, bodyOf lines, '\n' :: (gap ++ [']', ',']), after⟩ := by
    simp only [cut?, hblock.header, hfooter, Option.bind_eq_bind, Option.bind_some,
      Option.pure_def]
  have hindent := entryIndent_bodyOf hfits.wellFormed
  obtain ⟨hblank, hline⟩ := entryIndent_spec (bodyOf lines)
  rw [hindent] at hblank hline
  rw [patch?_of_cut hcut, setEntries_eq_steps, hindent, steps_bodyOf hfits htidy hblank hline,
    withLines]
  simp

theorem EntryLine.length_exchange_kept_le (us : List (String × Scalar)) (l : EntryLine) :
    (l.exchange keptComment us).text.length ≤ (l.exchange id us).text.length := by
  unfold exchange
  split
  · have hle := (keptComment_suffix l.comment).length_le
    simp only [text, List.length_append, List.length_cons, id_eq]
    omega
  · exact le_refl _

theorem EntryLine.text_exchange_kept_eq_iff :
    (l.exchange keptComment us).text = (l.exchange id us).text ↔
      (l.key ∈ us.map (fun u => u.1.toList) → l.comment = [] ∨ IsComment l.comment) := by
  unfold exchange
  split
  · next u hfound =>
      have hkey : u.1.toList = l.key := by simpa using List.find?_some hfound
      have hmem : l.key ∈ us.map (fun u => u.1.toList) :=
        hkey ▸ List.mem_map_of_mem (List.mem_of_find?_eq_some hfound)
      rw [← keptComment_eq_self_iff]
      simp [text, hmem]
  · next hnone =>
      have hkey : l.key ∉ us.map (fun u => u.1.toList) := by
        intro hmem
        obtain ⟨u, hu, hkey⟩ := List.mem_map.1 hmem
        exact List.find?_eq_none.1 hnone u hu (decide_eq_true hkey)
      simp [hkey]

theorem length_bodyOf_map_le {f g : EntryLine → EntryLine}
    (h : ∀ l ∈ lines, (f l).text.length ≤ (g l).text.length) :
    (bodyOf (lines.map f)).length ≤ (bodyOf (lines.map g)).length := by
  induction lines with
  | nil => exact le_refl _
  | cons l lines ih =>
      obtain ⟨hl, hlines⟩ := List.forall_mem_cons.1 h
      have hrest := ih hlines
      simp only [bodyOf, List.map_cons, List.flatMap_cons, List.length_append,
        List.length_cons] at hrest ⊢
      omega

/-- Where lines only get shorter, the body stays the same just if every line does. -/
theorem bodyOf_map_eq_iff {f g : EntryLine → EntryLine}
    (h : ∀ l ∈ lines, (f l).text.length ≤ (g l).text.length) :
    bodyOf (lines.map f) = bodyOf (lines.map g) ↔ ∀ l ∈ lines, (f l).text = (g l).text := by
  induction lines with
  | nil => simp
  | cons l lines ih =>
      obtain ⟨hl, hlines⟩ := List.forall_mem_cons.1 h
      have hcons (f : EntryLine → EntryLine) : bodyOf ((l :: lines).map f) =
          ('\n' :: (f l).text) ++ bodyOf (lines.map f) := rfl
      rw [List.forall_mem_cons, ← ih hlines, hcons, hcons]
      constructor
      · intro heq
        -- Neither the first line nor the rest can be longer on the left, so both are as long.
        have hlength := congrArg List.length heq
        have hrest := length_bodyOf_map_le hlines
        simp only [List.length_append, List.length_cons] at hlength
        obtain ⟨htext, hbody⟩ := List.append_inj heq (by simp only [List.length_cons]; omega)
        exact ⟨(List.cons.inj htext).2, hbody⟩
      · rintro ⟨htext, hbody⟩
        rw [htext, hbody]

/-- A patch of a block of entry lines exchanges the updated values and adds the missing keys, and
changes nothing else, just if blanks set off the comment of every updated line. -/
theorem patch?_eq_withLines_iff (hblock : IsBlock content driver before header lines closing)
    (hfits : Fits us lines) (htidy : Tidy us) :
    patch? content driver us = some (withLines before header
        (patchedLines id (blockIndent lines) lines us) closing) ↔
      ∀ l ∈ lines, l.key ∈ us.map (fun u => u.1.toList) →
        l.comment = [] ∨ IsComment l.comment := by
  have hcut : patch? content driver us = some (withLines before header
        (patchedLines id (blockIndent lines) lines us) closing) ↔
      bodyOf (lines.map (EntryLine.exchange keptComment us)) =
        bodyOf (lines.map (EntryLine.exchange id us)) := by
    rw [hblock.patch?_eq hfits htidy, Option.some.injEq, withLines, withLines, String.ofList_inj,
      patchedLines, patchedLines, bodyOf_append, bodyOf_append]
    simp
  rw [hcut, bodyOf_map_eq_iff fun l _ => l.length_exchange_kept_le us]
  exact forall₂_congr fun l _ => EntryLine.text_exchange_kept_eq_iff

/-- A block with a comment that blanks set off, and with a key in double quotes. -/
def twoEntries : String :=
  "<?php return [\n  'mysql' => [\n    'charset' => 'utf8', // server default\n" ++
    "    \"prefix\" => '',\n  ],\n];\n"

def charsetLine (comment : List Char) : EntryLine where
  indent := "    ".toList
  key := "charset".toList
  lead := "'charset' => ".toList
  value := "'utf8'".toList
  comment := comment

def prefixLine : EntryLine where
  indent := "    ".toList
  key := "prefix".toList
  lead := "\"prefix\" => ".toList
  value := "''".toList
  comment := []

def twoEntryLines : List EntryLine :=
  [charsetLine " // server default".toList, prefixLine]

/-- Updates of both entries, and of one that is missing. -/
def twoEntryUpdates : List (String × Scalar) :=
  [("prefix", .string "ci_"), ("engine", .null), ("charset", .string "latin1")]

theorem wellFormed_charsetLine {comment : List Char} (h : '\n' ∉ comment) :
    (charsetLine comment).WellFormed := by
  have hindent : ∀ c ∈ "    ".toList, Text.isBlank c = true := List.all_eq_true.1 rfl
  have hkey : Unquoted "charset".toList := by decide
  have hvalue : hasComment "'utf8'".toList = false := by decide +kernel
  have hfront : '\n' ∉ "    'charset' => 'utf8',".toList := by decide
  have htext : (charsetLine comment).text = "    'charset' => 'utf8',".toList ++ comment := rfl
  refine ⟨hindent, isLead_newLead "charset".toList, hkey, fun c hc => ?_, hvalue, ?_⟩
  · exact Option.some.inj hc ▸ by decide
  · rw [htext, List.mem_append, not_or]
    exact ⟨hfront, h⟩

/-- Two values are exchanged and a line is added. -/
theorem patch?_eq_withLines_twoEntries :
    IsBlock twoEntries "mysql" "<?php return [\n  ".toList "'mysql' => [".toList twoEntryLines
        "  ],\n];\n".toList ∧
      Fits twoEntryUpdates twoEntryLines ∧ Tidy twoEntryUpdates ∧
      patch? twoEntries "mysql" twoEntryUpdates =
        some (withLines "<?php return [\n  ".toList "'mysql' => [".toList
          (patchedLines id (blockIndent twoEntryLines) twoEntryLines twoEntryUpdates)
          "  ],\n];\n".toList) ∧
      withLines "<?php return [\n  ".toList "'mysql' => [".toList
          (patchedLines id (blockIndent twoEntryLines) twoEntryLines twoEntryUpdates)
          "  ],\n];\n".toList =
        "<?php return [\n  'mysql' => [\n    'charset' => 'latin1', // server default\n" ++
          "    \"prefix\" => 'ci_',\n    'engine' => null,\n  ],\n];\n" := by
  have hblock : IsBlock twoEntries "mysql" "<?php return [\n  ".toList "'mysql' => [".toList
      twoEntryLines "  ],\n];\n".toList :=
    ⟨by decide +kernel, "  ".toList, "\n];\n".toList, List.all_eq_true.1 rfl, rfl⟩
  have hprefix : prefixLine.WellFormed :=
    { indent := List.all_eq_true.1 rfl
      isLead := ⟨'"', '"', [' '], [' '], by decide, by decide, List.all_eq_true.1 rfl,
        List.all_eq_true.1 rfl, rfl⟩
      unquoted := by decide
      dark := fun c hc => Option.some.inj hc ▸ by decide
      uncommented := by decide +kernel
      oneLine := by decide }
  have hfits : Fits twoEntryUpdates twoEntryLines :=
    ⟨List.forall_mem_cons.2 ⟨wellFormed_charsetLine (by decide),
      List.forall_mem_singleton.2 hprefix⟩, by decide +kernel, by decide⟩
  have htidy : Tidy twoEntryUpdates :=
    ⟨by decide +kernel, by decide, by decide +kernel, by decide +kernel⟩
  have hcomments : ∀ l ∈ twoEntryLines, l.key ∈ twoEntryUpdates.map (fun u => u.1.toList) →
      l.comment = [] ∨ IsComment l.comment :=
    List.forall_mem_cons.2 ⟨fun _ => .inr ⟨[' '], _, by decide, by decide, rfl⟩,
      List.forall_mem_singleton.2 fun _ => .inl rfl⟩
  exact ⟨hblock, hfits, htidy, (patch?_eq_withLines_iff hblock hfits htidy).2 hcomments,
    by decide +kernel⟩

/-- A block with a comment that follows its comma at once. -/
def gluedComment : String :=
  "<?php return [\n  'mysql' => [\n    'charset' => 'utf8',// server default\n  ],\n];\n"

def gluedLines : List EntryLine :=
  [charsetLine "// server default".toList]

def gluedUpdates : List (String × Scalar) :=
  [("charset", .string "latin1")]

/-- The comment is lost when the value is exchanged. -/
theorem not_patch?_eq_withLines_gluedComment :
    IsBlock gluedComment "mysql" "<?php return [\n  ".toList "'mysql' => [".toList gluedLines
        "  ],\n];\n".toList ∧
      Fits gluedUpdates gluedLines ∧ Tidy gluedUpdates ∧
      patch? gluedComment "mysql" gluedUpdates =
        some "<?php return [\n  'mysql' => [\n    'charset' => 'latin1',\n  ],\n];\n" ∧
      patch? gluedComment "mysql" gluedUpdates ≠
        some (withLines "<?php return [\n  ".toList "'mysql' => [".toList
          (patchedLines id (blockIndent gluedLines) gluedLines gluedUpdates)
          "  ],\n];\n".toList) :=
  ⟨⟨by decide +kernel, "  ".toList, "\n];\n".toList, List.all_eq_true.1 rfl, rfl⟩,
    ⟨List.forall_mem_singleton.2 (wellFormed_charsetLine (by decide)), by decide +kernel,
      by decide⟩,
    ⟨by decide +kernel, by decide, by decide +kernel, by decide +kernel⟩, by decide +kernel,
    by decide +kernel⟩

end Resettle.ConnectionBlock
