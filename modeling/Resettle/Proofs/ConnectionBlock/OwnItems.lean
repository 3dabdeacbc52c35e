import Resettle.Proofs.ConnectionBlock.Runs
import Resettle.Proofs.Dictionary
import Resettle.Proofs.Php.Literals
import Resettle.Proofs.Text.Pieces

/-!
# Settings that own their items

An update edits the first lead of its key, up to the end of the line.  Where that lead is the one of
an item of the array, and what the edit gives up is the value of this item, the update exchanges the
value and nothing else.  Where no lead of the key is found, it adds an item at the end of the array.
-/

namespace Resettle.ConnectionBlock

open Php

/-! ## What an edit gives up -/

/-- The edit of an entry gives up `old`, up to the comment or the end of the line. -/
def GivesUp (old more : List Char) : Prop :=
  ∃ skipped comment, Text.search entryEnd? (lineOf (old ++ more)) = some (skipped, comment) ∧
    more = comment ++ behindLine (old ++ more)

theorem lineOf_append_feed (cs more : List Char) : lineOf (cs ++ '\n' :: more) = lineOf cs := by
  unfold lineOf
  induction cs with
  | nil => rfl
  | cons c cs ih =>
      by_cases hc : c = '\n'
      · subst hc
        rfl
      · rw [List.cons_append, List.takeWhile_cons_of_pos (by simp [hc]),
          List.takeWhile_cons_of_pos (by simp [hc]), ih]

theorem behindLine_append_feed (cs more : List Char) :
    behindLine (cs ++ '\n' :: more) = behindLine cs ++ '\n' :: more :=
  Text.dropWhile_append_cons (by decide) cs more

variable {old more front lead body : List Char}

/-- What stands behind a line feed does not matter to what is given up in front of it. -/
theorem GivesUp.behind_feed {mid : List Char} (h : GivesUp old (mid ++ '\n' :: more))
    (more' : List Char) : GivesUp old (mid ++ '\n' :: more') := by
  obtain ⟨skipped, comment, hend, hmore⟩ := h
  rw [← List.append_assoc, lineOf_append_feed] at hend
  rw [← List.append_assoc, behindLine_append_feed, ← List.append_assoc] at hmore
  have hmid : mid = comment ++ behindLine (old ++ mid) := List.append_cancel_right hmore
  refine ⟨skipped, comment, ?_, ?_⟩
  · rw [← List.append_assoc, lineOf_append_feed, hend]
  · rw [← List.append_assoc, behindLine_append_feed, ← List.append_assoc, ← hmid]

theorem GivesUp.append_feed (h : GivesUp old more) (line : List Char) :
    GivesUp old (more ++ '\n' :: line) := by
  obtain ⟨skipped, comment, hend, hmore⟩ := h
  refine ⟨skipped, comment, ?_, ?_⟩
  · rw [← List.append_assoc, lineOf_append_feed, hend]
  · rw [← List.append_assoc, behindLine_append_feed, ← List.append_assoc, ← hmore]

theorem GivesUp.endsLine (h : GivesUp old more) : EndsLine more := by
  obtain ⟨skipped, comment, hend, hmore⟩ := h
  obtain ⟨line, -, hcomment⟩ := Text.search_eq_some hend
  rw [hmore]
  exact endsLine_of_entryEnd? hcomment _

theorem GivesUp.setEntry {key : List Char} (h : GivesUp old more)
    (hfirst : FirstAt key body front lead (old ++ more)) (indent literal : List Char) :
    ConnectionBlock.setEntry indent body key literal =
      front ++ lead ++ (literal ++ ',' :: more) := by
  obtain ⟨skipped, comment, hend, hmore⟩ := h
  obtain ⟨skipped', comment', hend', -, hset⟩ := hfirst.setEntry
  rw [hend] at hend'
  obtain ⟨rfl, rfl⟩ := Prod.mk.inj (Option.some.inj hend')
  rw [hset, ← hmore]

/-! ## Texts of single items -/

variable {key : String} {value text rest behind : List Char}

/-- A text that is one item with its comma, and holds no comment. -/
structure IsItem (key : String) (value text : List Char) : Prop where
  boundary : Boundary text
  items : items? (Reader.start.marks text) = some [(key, value)]
  uncommented : ∀ m ∈ Reader.start.marks text, m.isComment = false

/-- A lead that reads as the key of an item. -/
structure KeyLead (key : String) (lead : List Char) : Prop where
  run : Reader.start.run lead = Reader.start
  key : leadKey? (Reader.start.marks lead) = some key
  uncommented : ∀ m ∈ Reader.start.marks lead, m.isComment = false
  noComma : ',' ∉ lead

theorem KeyLead.isItem (h : KeyLead key lead) (v : Scalar) :
    IsItem key v.literal.toList (lead ++ (v.literal.toList ++ [','])) := by
  have hrun := (Reader.read_literal v).1
  have hmarks := Reader.marks_literal v
  have hcut : Reader.start.marks (lead ++ (v.literal.toList ++ [','])) =
      Reader.start.marks lead ++ Reader.start.marks v.literal.toList ++ [.direct ','] := by
    rw [Reader.marks_append, h.run, Reader.marks_append, hrun, List.append_assoc]
    rfl
  refine ⟨⟨?_, ?_⟩, ?_, ?_⟩
  · rw [Reader.run_append, h.run, Reader.run_append, hrun]
    rfl
  · rw [hcut]
    exact fresh_comma _
  · have hne : codeText (Reader.start.marks v.literal.toList) ≠ [] := by
      rw [Reader.codeText_literal]
      exact v.literal_ne_nil
    have hlead : ∀ m ∈ Reader.start.marks lead, m.isComma = false :=
      Reader.isComma_eq_false_of_notMem h.noComma
    have hcomma := List.forall_mem_append.2 ⟨hlead, fun m hm => (hmarks m hm).1⟩
    rw [hcut, items?_of_leadKey? h.key hne hcomma, Reader.codeText_literal]
  · rw [hcut]
    intro m hm
    rw [List.mem_append, List.mem_append, List.mem_singleton] at hm
    rcases hm with (hm | hm) | rfl
    · exact h.uncommented m hm
    · exact (hmarks m hm).2
    · rfl

theorem KeyLead.not_items (h : KeyLead key lead) {items : List (String × List Char)} :
    items? (Reader.start.marks lead) ≠ some items := by
  have hitem := item?_of_leadKey? h.key []
  have hnil : codeText [] = [] := rfl
  rw [List.append_nil, if_pos hnil] at hitem
  rw [items?_of_forall (Reader.isComma_eq_false_of_notMem h.noComma), itemsOf?,
    if_neg (not_isGap_of_leadKey? h.key), hitem]
  exact Option.some_ne_none items ∘ Eq.symm

/-- A lead and what an edit gives up behind it: the text of one item, with its comma or at the end
of the array, and without comments. -/
structure OwnItem (key : String) (lead old behind : List Char) : Prop where
  keyLead : KeyLead key lead
  run : Reader.start.run old = Reader.start
  items : ∃ value, items? (Reader.start.marks (lead ++ old)) = some [(key, value)]
  uncommented : ∀ m ∈ Reader.start.marks old, m.isComment = false
  ends : Fresh (Reader.start.marks (lead ++ old)) ∨ IsGap (Reader.start.marks behind)

namespace OwnItem

theorem old_ne_nil (h : OwnItem key lead old behind) : old ≠ [] := by
  rintro rfl
  obtain ⟨value, hitems⟩ := h.items
  rw [List.append_nil] at hitems
  exact h.keyLead.not_items hitems

theorem run_lead_old (h : OwnItem key lead old behind) :
    Reader.start.run (lead ++ old) = Reader.start := by
  rw [Reader.run_append, h.keyLead.run, h.run]

theorem boundary_of_fresh (h : OwnItem key lead old behind)
    (hfresh : Fresh (Reader.start.marks (lead ++ old))) : Boundary (lead ++ old) :=
  ⟨h.run_lead_old, hfresh⟩

/-- The items behind an item's lead are the item and those behind the part that is given up. -/
theorem items?_append (h : OwnItem key lead old behind) :
    ∃ value, items? (Reader.start.marks (lead ++ old ++ behind)) =
      (items? (Reader.start.marks behind)).map ((key, value) :: ·) := by
  obtain ⟨value, hitems⟩ := h.items
  refine ⟨value, ?_⟩
  rcases h.ends with hfresh | hgap
  · rw [(h.boundary_of_fresh hfresh).items?_append, hitems]
    rfl
  · rw [Reader.marks_append, h.run_lead_old, items?_append_gap hitems hgap, items?_of_isGap hgap]
    rfl

theorem isGap_of_boundary {mid extra : List Char} (h : OwnItem key lead (mid ++ extra) behind)
    (hmid : Boundary (lead ++ mid)) : IsGap (Reader.start.marks extra) := by
  obtain ⟨value, hitems⟩ := h.items
  rw [← List.append_assoc, hmid.items?_append, Option.bind_eq_some_iff] at hitems
  obtain ⟨items, hitems, hmore⟩ := hitems
  obtain ⟨more, hextra, heq⟩ := Option.map_eq_some_iff.1 hmore
  cases items with
  | nil =>
      have hgap := isGap_of_items? hitems
      rw [Reader.marks_append] at hgap
      exact absurd (isGap_append_iff.1 hgap).1 (not_isGap_of_leadKey? h.keyLead.key)
  | cons item items =>
      obtain ⟨-, hnil⟩ := List.cons.inj heq
      obtain ⟨-, rfl⟩ := List.append_eq_nil_iff.1 hnil
      exact isGap_of_items? hextra

end OwnItem

/-! ## What an update does to what is read -/

/-- Reading one text is reading the other with a value set for a key. -/
structure Sets (key : String) (value cs cs' : List Char) : Prop where
  run : Reader.start.run cs' = Reader.start.run cs
  comments : comments (Reader.start.marks cs') = comments (Reader.start.marks cs)
  items : ∀ items, items? (Reader.start.marks cs) = some items →
    (items.map Prod.fst).count key ≤ 1 →
    ∃ items', items? (Reader.start.marks cs') = some items' ∧
      Dictionary.ofList items' = (Dictionary.ofList items).insert key value ∧
      ∀ other, other ≠ key →
        (items'.map Prod.fst).count other = (items.map Prod.fst).count other

theorem OwnItem.sets (h : OwnItem key lead old behind) (hfront : Boundary front) (v : Scalar) :
    Sets key v.literal.toList (front ++ (lead ++ old ++ behind))
      (front ++ (lead ++ (v.literal.toList ++ [',']) ++ behind)) := by
  have hitem := h.keyLead.isItem v
  refine ⟨?_, ?_, fun items hitems hcount => ?_⟩
  · rw [hfront.run_append, hfront.run_append, hitem.boundary.run_append, Reader.run_append,
      h.run_lead_old]
  · rw [hfront.marks_append, hfront.marks_append, hitem.boundary.marks_append,
      Reader.marks_append _ (lead ++ old), h.run_lead_old]
    have hlead : Reader.start.marks lead ≠ [] := by
      intro hnil
      exact not_isGap_of_leadKey? h.keyLead.key (hnil ▸ List.forall_mem_nil _)
    rw [comments_around _ hitem.uncommented, comments_around]
    · rw [Reader.marks_append]
      exact fun hnil => hlead (List.append_eq_nil_iff.1 hnil).1
    · rw [Reader.marks_append, h.keyLead.run]
      exact List.forall_mem_append.2 ⟨h.keyLead.uncommented, h.uncommented⟩
    · rw [Reader.marks_append]
      exact fun hnil => hlead (List.append_eq_nil_iff.1 hnil).1
  · obtain ⟨value, hown⟩ := h.items?_append
    rw [hfront.items?_append, hown, Option.bind_eq_some_iff] at hitems
    obtain ⟨before, hbefore, hmore⟩ := hitems
    obtain ⟨_, hown, rfl⟩ := Option.map_eq_some_iff.1 hmore
    obtain ⟨back, hback, rfl⟩ := Option.map_eq_some_iff.1 hown
    have hnew : key ∉ back.map Prod.fst := by
      intro hmem
      have hpos := List.count_pos_iff.2 hmem
      simp only [List.map_append, List.map_cons, List.count_append, List.count_cons_self] at hcount
      omega
    refine ⟨before ++ (key, v.literal.toList) :: back, ?_, ?_, fun other hother => ?_⟩
    · rw [hfront.items?_append, hitem.boundary.items?_append, hbefore, hitem.items, hback]
      rfl
    · exact Dictionary.ofList_exchange hnew before _ _
    · simp only [List.map_append, List.map_cons]

theorem IsItem.sets (h : IsItem key value text) (hfront : Boundary (front ++ ['\n']))
    (hrest : IsGap (Reader.start.marks rest)) :
    Sets key value (front ++ '\n' :: rest) (front ++ '\n' :: (text ++ '\n' :: rest)) := by
  have hcut : ∀ cs, front ++ '\n' :: cs = (front ++ ['\n']) ++ cs := by simp
  have hfeed : Reader.start.run ('\n' :: rest) = Reader.start.run rest ∧
      Reader.start.marks ('\n' :: rest) = [.direct '\n'] ++ Reader.start.marks rest := ⟨rfl, rfl⟩
  have hgap : IsGap (Reader.start.marks ('\n' :: rest)) := by
    rw [hfeed.2]
    exact IsGap.append (by decide) hrest
  rw [hcut rest, hcut (text ++ _)]
  refine ⟨?_, ?_, fun items hitems _ => ?_⟩
  · rw [hfront.run_append, hfront.run_append, h.boundary.run_append, hfeed.1]
  · obtain ⟨ms, m, hms, hm⟩ := Reader.exists_marks_feed hfront.run
    have hadded : ∀ n ∈ Reader.start.marks text ++ [Mark.direct '\n'], n.isComment = false :=
      List.forall_mem_append.2 ⟨h.uncommented, List.forall_mem_singleton.2 rfl⟩
    have hnew := comments_append_cons hm ms
      (Reader.start.marks text ++ [.direct '\n'] ++ Reader.start.marks rest)
    rw [hfront.marks_append, hfront.marks_append, h.boundary.marks_append, hfeed.2, hms,
      ← List.append_assoc (Reader.start.marks text), List.append_assoc ms, List.append_assoc ms,
      List.singleton_append, List.singleton_append, hnew, comments_append_cons hm ms]
    exact congrArg _ (comments_around (by simp) hadded [] (Reader.start.marks rest))
  · rw [hfront.items?_append, items?_of_isGap hrest, Option.bind_eq_some_iff] at hitems
    obtain ⟨front', hfront', hitems⟩ := hitems
    rw [Option.map_some, List.append_nil, Option.some.injEq] at hitems
    subst hitems
    refine ⟨front' ++ [(key, value)], ?_, Dictionary.insertMany_append _ _ _, fun other hother => ?_⟩
    · rw [hfront.items?_append, h.boundary.items?_append, hfront', h.items, items?_of_isGap hgap]
      rfl
    · have hkey : key ≠ other := Ne.symm hother
      simp [hkey]

end Resettle.ConnectionBlock
