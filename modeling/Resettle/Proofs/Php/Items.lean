import Mathlib.Data.List.TakeWhile
import Resettle.Dictionary
import Resettle.Proofs.Php.Marks
import Resettle.Proofs.Text.Trimming

/-!
# Items of an array

The items `'key' => value` of an array, read off the marks of its text, and its comments.  A text is
read apart at its fresh places, where a comma or the array's bracket stands in front and only blanks
and comments are between: the items of the two parts are the items of the whole.
-/

namespace Resettle.Php

def isSpace (c : Char) : Bool :=
  c == ' ' || c == '\t' || c == '\n' || c == '\r'

/-- The code that is marked, a comment being blank. -/
def Mark.code : Mark → Char
  | .comment _ => ' '
  | .inner c => c
  | .direct c => c

/-- Marks of blanks and comments only. -/
def IsGap (ms : List Mark) : Prop :=
  ∀ m ∈ ms, isSpace m.code = true

instance (ms : List Mark) : Decidable (IsGap ms) :=
  List.decidableBAll _ ms

def codeText (ms : List Mark) : List Char :=
  Text.dropWhileEnd isSpace ((ms.map Mark.code).dropWhile isSpace)

/-- What stands in front of the first arrow and behind it. -/
def arrow? : List Mark → Option (List Mark × List Mark)
  | .direct '=' :: .direct '>' :: ms => some ([], ms)
  | m :: ms => (arrow? ms).map fun (name, value) => (m :: name, value)
  | [] => none

/-- Whether a character stands for itself in strings of both kinds. -/
def isVerbatim (c : Char) : Bool :=
  c ≠ '\'' && c ≠ '"' && c ≠ '\\' && c ≠ '$'

/-- The key that a string token without escapes stands for. -/
def key? : List Char → Option String
  | q :: cs =>
      if (q = '\'' ∨ q = '"') ∧ cs.getLast? = some q ∧ cs.dropLast.all isVerbatim = true then
        some (String.ofList cs.dropLast)
      else none
  | [] => none

/-- The key and the value of an item, the value as its code. -/
def item? (ms : List Mark) : Option (String × List Char) := do
  let (name, value) ← arrow? ms
  let key ← key? (codeText name)
  if codeText value = [] then none else return (key, codeText value)

/-- The items that stand between commas.  The last comma may have no item behind it. -/
def itemsOf? : List (List Mark) → Option (List (String × List Char))
  | [] => some []
  | [ms] => if IsGap ms then some [] else (item? ms).map fun item => [item]
  | ms :: more => do
      let item ← item? ms
      let items ← itemsOf? more
      return item :: items

/-- The items of an array, first item first. -/
def items? (ms : List Mark) : Option (List (String × List Char)) :=
  itemsOf? (ms.splitOnP Mark.isComma)

def comments (ms : List Mark) : List (List Char) :=
  ((ms.splitOnP fun m => !m.isComment).filter (· ≠ [])).map (·.map Mark.char)

/-- What an array says: the value of each key, and what is noted in comments. -/
structure Reading where
  values : Dictionary String (List Char)
  comments : List (List Char)
deriving DecidableEq

/-- An array of items with keys, read from behind its opening bracket. -/
def readArray? (cs : List Char) : Option Reading :=
  if (Reader.start.run cs).mode = .closed then
    (items? (Reader.start.marks cs)).map fun items =>
      ⟨Dictionary.ofList items, comments (Reader.start.marks cs)⟩
  else none

/-! ## Gaps -/

variable {gap ms ns : List Mark} {name value : List Mark} {key : String}

theorem IsGap.append (h : IsGap ms) (h' : IsGap ns) : IsGap (ms ++ ns) := by
  intro m hm
  rcases List.mem_append.1 hm with hm | hm
  · exact h m hm
  · exact h' m hm

theorem isGap_append_iff : IsGap (ms ++ ns) ↔ IsGap ms ∧ IsGap ns :=
  ⟨fun h => ⟨fun m hm => h m (List.mem_append_left _ hm), fun m hm => h m (List.mem_append_right _ hm)⟩,
    fun h => h.1.append h.2⟩

theorem IsGap.isComma_eq_false (h : IsGap ms) : ∀ m ∈ ms, m.isComma = false := by
  intro m hm
  have hspace := h m hm
  unfold Mark.isComma
  split
  · exact absurd hspace (by decide)
  · rfl

theorem forall_isSpace_of_isGap (h : IsGap ms) : ∀ c ∈ ms.map Mark.code, isSpace c = true := by
  exact List.forall_mem_map.2 h

theorem codeText_gap_append (h : IsGap gap) (ms : List Mark) :
    codeText (gap ++ ms) = codeText ms := by
  unfold codeText
  rw [List.map_append, List.dropWhile_append_of_pos (forall_isSpace_of_isGap h)]

theorem codeText_append_gap (ms : List Mark) (h : IsGap gap) :
    codeText (ms ++ gap) = codeText ms := by
  unfold codeText
  rw [List.map_append, Text.dropWhileEnd_dropWhile_append _ (forall_isSpace_of_isGap h)]

theorem arrow?_append_of_notMem (h : .direct '=' ∉ ms) (ns : List Mark) :
    arrow? (ms ++ ns) = (arrow? ns).map fun (name, value) => (ms ++ name, value) := by
  induction ms with
  | nil => simp
  | cons m ms ih =>
      rw [List.mem_cons, not_or] at h
      rw [List.cons_append, arrow?, ih h.2, Option.map_map]
      · rfl
      · exact fun _ hm _ => h.1 hm.symm

theorem arrow?_gap_append (h : IsGap gap) (ms : List Mark) :
    arrow? (gap ++ ms) = (arrow? ms).map fun (name, value) => (gap ++ name, value) :=
  arrow?_append_of_notMem (fun hmem => absurd (h _ hmem) (by decide)) ms

theorem arrow?_append (h : arrow? ms = some (name, value)) (ns : List Mark) :
    arrow? (ms ++ ns) = some (name, value ++ ns) := by
  fun_induction arrow? ms generalizing name with
  | case1 ms =>
      obtain ⟨rfl, rfl⟩ := Prod.mk.inj (Option.some.inj h)
      rfl
  | case2 m ms harrow ih =>
      obtain ⟨⟨name', value'⟩, hmore, heq⟩ := Option.map_eq_some_iff.1 h
      obtain ⟨rfl, rfl⟩ := Prod.mk.inj heq
      rw [List.cons_append, arrow?, ih hmore]
      · rfl
      · rintro rest rfl hrest
        cases ms with
        | nil => cases hmore
        | cons m ms =>
            obtain ⟨rfl, -⟩ := List.cons.inj hrest
            exact harrow ms rfl rfl
  | case3 => cases h

theorem item?_gap_append (h : IsGap gap) (ms : List Mark) : item? (gap ++ ms) = item? ms := by
  unfold item?
  rw [arrow?_gap_append h]
  cases arrow? ms with
  | none => rfl
  | some found =>
      simp only [Option.map_some, Option.bind_eq_bind, Option.bind_some, codeText_gap_append h]

theorem item?_append_gap (hitem : (item? ms).isSome = true) (h : IsGap gap) :
    item? (ms ++ gap) = item? ms := by
  unfold item? at hitem ⊢
  cases harrow : arrow? ms with
  | none =>
      rw [harrow] at hitem
      cases hitem
  | some found =>
      rw [arrow?_append harrow gap]
      simp only [Option.bind_eq_bind, Option.bind_some, codeText_append_gap _ h]

/-! ## Items of several texts -/

theorem itemsOf?_cons (ms : List Mark) {more : List (List Mark)} (h : more ≠ []) :
    itemsOf? (ms :: more) = (item? ms).bind fun item => (itemsOf? more).map (item :: ·) := by
  rw [itemsOf?]
  · cases item? ms with
    | none => rfl
    | some item => cases itemsOf? more <;> rfl
  · exact h

theorem itemsOf?_append (front : List (List Mark)) {back : List (List Mark)} (h : back ≠ []) :
    itemsOf? (front ++ back) =
      (front.mapM item?).bind fun items => (itemsOf? back).map (items ++ ·) := by
  induction front with
  | nil => simp
  | cons ms front ih =>
      rw [List.cons_append, itemsOf?_cons ms (by simp [h]), ih, List.mapM_cons]
      cases item? ms with
      | none => rfl
      | some item =>
          cases front.mapM item? with
          | none => rfl
          | some items => simp [Function.comp_def]

theorem items?_nil : items? [] = some [] := by
  simp [items?, itemsOf?, IsGap]

theorem items?_append_comma (ms ns : List Mark) :
    items? (ms ++ .direct ',' :: ns) =
      ((ms.splitOnP Mark.isComma).mapM item?).bind fun items => (items? ns).map (items ++ ·) := by
  unfold items?
  rw [List.splitOnP_append_cons ms ns rfl, itemsOf?_append _ (List.splitOnP_ne_nil _ ns)]

theorem items?_of_forall (h : ∀ m ∈ ms, m.isComma = false) : items? ms = itemsOf? [ms] := by
  rw [items?, List.splitOnP_eq_singleton h]

theorem items?_gap_append (h : IsGap gap) (ms : List Mark) : items? (gap ++ ms) = items? ms := by
  have hhead : ∀ m pieces, isSpace m.code = true →
      itemsOf? (List.modifyHead (m :: ·) pieces) = itemsOf? pieces := by
    intro m pieces hm
    have hm' : IsGap [m] := List.forall_mem_singleton.2 hm
    match pieces with
    | [] => rfl
    | [piece] =>
        have hitem : item? (m :: piece) = item? piece := item?_gap_append hm' piece
        have hgap : IsGap (m :: piece) ↔ IsGap piece := by simp [IsGap, hm]
        simp only [List.modifyHead_cons, itemsOf?, hitem, hgap]
    | piece :: next :: more =>
        have hitem : item? (m :: piece) = item? piece := item?_gap_append hm' piece
        simp only [List.modifyHead_cons, itemsOf?, hitem]
  induction gap with
  | nil => rfl
  | cons m gap ih =>
      obtain ⟨hm, hgap⟩ := List.forall_mem_cons.1 h
      have hcomma := h.isComma_eq_false m List.mem_cons_self
      rw [items?, List.cons_append, List.splitOnP_cons_eq_if_modifyHead, hcomma]
      exact (hhead m _ hm).trans (ih hgap)

theorem items?_of_isGap (h : IsGap gap) : items? gap = some [] := by
  have hgap := items?_gap_append h []
  rwa [List.append_nil, items?_nil] at hgap

theorem exists_last_comma (ms : List Mark) :
    (∀ m ∈ ms, m.isComma = false) ∨
      ∃ front last, ms = front ++ .direct ',' :: last ∧ ∀ m ∈ last, m.isComma = false := by
  induction ms with
  | nil => exact .inl (List.forall_mem_nil _)
  | cons m ms ih =>
      rcases ih with hnone | ⟨front, last, rfl, hlast⟩
      · cases hm : m.isComma with
        | false => exact .inl (List.forall_mem_cons.2 ⟨hm, hnone⟩)
        | true =>
            have hcomma : m = .direct ',' := by
              unfold Mark.isComma at hm
              split at hm
              · rfl
              · cases hm
            exact .inr ⟨[], ms, by rw [hcomma]; rfl, hnone⟩
      · exact .inr ⟨m :: front, last, rfl, hlast⟩

theorem items?_append_gap {items : List (String × List Char)} (h : items? ms = some items)
    (hgap : IsGap gap) : items? (ms ++ gap) = some items := by
  have hlast : ∀ last items, itemsOf? [last] = some items →
      itemsOf? [last ++ gap] = some items := by
    intro last items hitems
    unfold itemsOf? at hitems ⊢
    split at hitems
    · next hblank => rwa [if_pos (hblank.append hgap)]
    · next hdark =>
        obtain ⟨item, hitem, -⟩ := Option.map_eq_some_iff.1 hitems
        rw [if_neg fun hblank => hdark (isGap_append_iff.1 hblank).1,
          item?_append_gap (Option.isSome_iff_exists.2 ⟨item, hitem⟩) hgap]
        exact hitems
  rcases exists_last_comma ms with hnone | ⟨front, last, rfl, hnone⟩
  · have hnone' : ∀ m ∈ ms ++ gap, m.isComma = false :=
      List.forall_mem_append.2 ⟨hnone, hgap.isComma_eq_false⟩
    rw [items?_of_forall hnone] at h
    rw [items?_of_forall hnone']
    exact hlast ms items h
  · have hnone' : ∀ m ∈ last ++ gap, m.isComma = false :=
      List.forall_mem_append.2 ⟨hnone, hgap.isComma_eq_false⟩
    rw [items?_append_comma, items?_of_forall hnone, Option.bind_eq_some_iff] at h
    obtain ⟨ended, hended, h⟩ := h
    obtain ⟨more, hmore, rfl⟩ := Option.map_eq_some_iff.1 h
    rw [List.append_assoc, List.cons_append, items?_append_comma, hended,
      items?_of_forall hnone', hlast last more hmore]
    rfl

theorem isGap_of_items? (h : items? ms = some []) : IsGap ms := by
  rcases exists_last_comma ms with hnone | ⟨front, last, rfl, -⟩
  · rw [items?_of_forall hnone, itemsOf?] at h
    split at h
    · assumption
    · obtain ⟨item, -, hitem⟩ := Option.map_eq_some_iff.1 h
      cases hitem
  · rw [items?_append_comma, Option.bind_eq_some_iff] at h
    obtain ⟨ended, hended, h⟩ := h
    obtain ⟨more, -, heq⟩ := Option.map_eq_some_iff.1 h
    obtain ⟨rfl, -⟩ := List.append_eq_nil_iff.1 heq
    -- What stands in front of a comma is split into one piece at least, which is an item.
    obtain ⟨piece, pieces, hpieces⟩ :=
      List.exists_cons_of_ne_nil (List.splitOnP_ne_nil Mark.isComma front)
    rw [hpieces, List.mapM_cons] at hended
    cases hitem : item? piece <;> cases hmore : pieces.mapM item? <;> simp_all

/-! ## Fresh places -/

/-- Whether an item can start behind a text: nothing but a gap stands behind its last comma. -/
def Fresh (ms : List Mark) : Prop :=
  IsGap (ms.reverse.takeWhile fun m => !m.isComma)

instance (ms : List Mark) : Decidable (Fresh ms) :=
  inferInstanceAs (Decidable (IsGap _))

theorem fresh_iff :
    Fresh ms ↔ IsGap ms ∨ ∃ front gap, IsGap gap ∧ ms = front ++ .direct ',' :: gap := by
  unfold Fresh
  constructor
  · intro h
    rcases exists_last_comma ms with hnone | ⟨front, last, rfl, hnone⟩
    · rw [List.takeWhile_eq_self_iff.2] at h
      · exact .inl fun m hm => h m (List.mem_reverse.2 hm)
      · exact fun m hm => by rw [hnone m (List.mem_reverse.1 hm)]; rfl
    · refine .inr ⟨front, last, fun m hm => h m ?_, rfl⟩
      rw [List.reverse_append, List.reverse_cons, List.append_assoc,
        List.takeWhile_append_of_pos]
      · exact List.mem_append_left _ (List.mem_reverse.2 hm)
      · exact fun m hm => by rw [hnone m (List.mem_reverse.1 hm)]; rfl
  · rintro (h | ⟨front, gap, h, rfl⟩) m hm
    · exact h m (List.mem_reverse.1 (List.takeWhile_subset _ hm))
    · rw [List.reverse_append, List.reverse_cons, List.append_assoc,
        List.takeWhile_append_of_pos] at hm
      · have hcut : ([Mark.direct ','] ++ front.reverse).takeWhile (fun m => !m.isComma) = [] := rfl
        rw [hcut, List.append_nil] at hm
        exact h m (List.mem_reverse.1 hm)
      · exact fun m hm => by rw [h.isComma_eq_false m (List.mem_reverse.1 hm)]; rfl

theorem IsGap.fresh (h : IsGap ms) : Fresh ms :=
  fresh_iff.2 (.inl h)

theorem fresh_comma (ms : List Mark) : Fresh (ms ++ [.direct ',']) :=
  fresh_iff.2 (.inr ⟨ms, [], List.forall_mem_nil _, rfl⟩)

theorem Fresh.append (h : Fresh ms) (h' : Fresh ns) : Fresh (ms ++ ns) := by
  rcases fresh_iff.1 h' with hgap | ⟨front, gap, hgap, rfl⟩
  · rcases fresh_iff.1 h with hgap' | ⟨front, gap, hgap', rfl⟩
    · exact (hgap'.append hgap).fresh
    · exact fresh_iff.2 (.inr ⟨front, gap ++ ns, hgap'.append hgap, by simp⟩)
  · exact fresh_iff.2 (.inr ⟨ms ++ front, gap, hgap, by simp⟩)

theorem Fresh.of_append (h : Fresh (ms ++ ns)) : Fresh ns := by
  rcases fresh_iff.1 h with hgap | ⟨front, gap, hgap, heq⟩
  · exact (isGap_append_iff.1 hgap).2.fresh
  · rcases List.append_eq_append_iff.1 heq with ⟨extra, -, rfl⟩ | ⟨extra, -, hover⟩
    · exact fresh_iff.2 (.inr ⟨extra, gap, hgap, rfl⟩)
    · cases extra with
      | nil => exact fresh_iff.2 (.inr ⟨[], gap, hgap, hover.symm⟩)
      | cons m extra =>
          obtain ⟨-, rfl⟩ := List.cons.inj hover
          exact (isGap_append_iff.1 hgap).2.fresh

theorem Fresh.of_append_gap (h : Fresh (ms ++ gap)) (hgap : IsGap gap) : Fresh ms := by
  have hcomma : .direct ',' ∉ gap := fun hmem => absurd (hgap _ hmem) (by decide)
  rcases fresh_iff.1 h with hgap' | ⟨front, gap', hgap', heq⟩
  · exact (isGap_append_iff.1 hgap').1.fresh
  · rcases List.append_eq_append_iff.1 heq with ⟨extra, -, rfl⟩ | ⟨extra, rfl, hover⟩
    · exact absurd (by simp) hcomma
    · cases extra with
      | nil => exact absurd (by rw [← List.nil_append gap, ← hover]; simp) hcomma
      | cons m extra =>
          obtain ⟨rfl, rfl⟩ := List.cons.inj hover
          exact fresh_iff.2 (.inr ⟨front, extra, (isGap_append_iff.1 hgap').1, rfl⟩)

/-- At a fresh place the items of a text are those in front of it and those behind it. -/
theorem Fresh.items?_append (h : Fresh ms) (ns : List Mark) :
    items? (ms ++ ns) = (items? ms).bind fun front => (items? ns).map (front ++ ·) := by
  rcases fresh_iff.1 h with hgap | ⟨front, gap, hgap, rfl⟩
  · rw [items?_gap_append hgap, items?_of_isGap hgap]
    simp
  · rw [List.append_assoc, List.cons_append, items?_append_comma, items?_append_comma,
      items?_gap_append hgap, items?_of_isGap hgap]
    cases (front.splitOnP Mark.isComma).mapM item? <;> simp

/-- A text that leaves nothing open, and behind which an item can start. -/
structure Boundary (cs : List Char) : Prop where
  run : Reader.start.run cs = Reader.start
  fresh : Fresh (Reader.start.marks cs)

namespace Boundary

variable {cs ds : List Char}

theorem run_append (h : Boundary cs) (ds : List Char) :
    Reader.start.run (cs ++ ds) = Reader.start.run ds := by
  rw [Reader.run_append, h.run]

theorem marks_append (h : Boundary cs) (ds : List Char) :
    Reader.start.marks (cs ++ ds) = Reader.start.marks cs ++ Reader.start.marks ds := by
  rw [Reader.marks_append, h.run]

theorem append (h : Boundary cs) (h' : Boundary ds) : Boundary (cs ++ ds) where
  run := by rw [h.run_append, h'.run]
  fresh := by
    rw [h.marks_append]
    exact h.fresh.append h'.fresh

theorem of_append (h : Boundary (cs ++ ds)) (hcs : Reader.start.run cs = Reader.start) :
    Boundary ds where
  run := by
    have hrun := h.run
    rwa [Reader.run_append, hcs] at hrun
  fresh := by
    have hfresh := h.fresh
    rw [Reader.marks_append, hcs] at hfresh
    exact hfresh.of_append

theorem items?_append (h : Boundary cs) (ds : List Char) :
    items? (Reader.start.marks (cs ++ ds)) =
      (items? (Reader.start.marks cs)).bind fun front =>
        (items? (Reader.start.marks ds)).map (front ++ ·) := by
  rw [h.marks_append, h.fresh.items?_append]

end Boundary

theorem notMem_special_of_isSpace {c : Char} (h : isSpace c = true) : c ∉ Reader.special := by
  have hspecial : Reader.special.all (fun d => !isSpace d) = true := by decide
  intro hmem
  have hc := List.all_eq_true.1 hspecial c hmem
  rw [h] at hc
  cases hc

theorem boundary_of_forall_isSpace {cs : List Char} (h : ∀ c ∈ cs, isSpace c = true) :
    Boundary cs where
  run := Reader.run_of_notMem fun c hc => notMem_special_of_isSpace (h c hc)
  fresh := by
    rw [Reader.marks_of_notMem fun c hc => notMem_special_of_isSpace (h c hc)]
    refine IsGap.fresh fun m hm => ?_
    obtain ⟨c, hc, rfl⟩ := List.mem_map.1 hm
    exact h c hc

/-! ## Single items -/

/-- The key in front of an arrow that has only blanks and comments behind it. -/
def leadKey? (ms : List Mark) : Option String := do
  let (name, rest) ← arrow? ms
  if IsGap rest then key? (codeText name) else none

theorem item?_of_leadKey? (h : leadKey? ms = some key) (ns : List Mark) :
    item? (ms ++ ns) = if codeText ns = [] then none else some (key, codeText ns) := by
  unfold leadKey? at h
  obtain ⟨⟨name, rest⟩, harrow, hkey⟩ := Option.bind_eq_some_iff.1 h
  dsimp only at hkey
  split at hkey
  · next hgap =>
      rw [item?, arrow?_append harrow ns]
      simp [hkey, codeText_gap_append hgap]
  · cases hkey

theorem not_isGap_of_leadKey? (h : leadKey? ms = some key) : ¬ IsGap ms := by
  intro hgap
  have harrow := arrow?_gap_append hgap []
  rw [List.append_nil] at harrow
  rw [leadKey?, harrow] at h
  cases h

theorem items?_of_leadKey? (h : leadKey? ms = some key) (hne : codeText ns ≠ [])
    (hcomma : ∀ m ∈ ms ++ ns, m.isComma = false) :
    items? (ms ++ ns ++ [.direct ',']) = some [(key, codeText ns)] := by
  rw [items?_append_comma, List.splitOnP_eq_singleton hcomma, items?_nil, List.mapM_cons,
    item?_of_leadKey? h, if_neg hne]
  rfl

/-! ## Comments -/

theorem comments_append_cons {m : Mark} (h : m.isComment = false) (ms ns : List Mark) :
    comments (ms ++ m :: ns) = comments ms ++ comments ns := by
  unfold comments
  rw [List.splitOnP_append_cons ms ns (by simp [h]), List.filter_append, List.map_append]

theorem comments_of_forall (h : ∀ m ∈ ms, m.isComment = false) : comments ms = [] := by
  induction ms with
  | nil => simp [comments]
  | cons m ms ih =>
      obtain ⟨hm, hms⟩ := List.forall_mem_cons.1 h
      have hcut := comments_append_cons hm [] ms
      rw [List.nil_append, ih hms] at hcut
      rw [hcut]
      simp [comments]

/-- The comments around code are those in front of it and those behind it. -/
theorem comments_around (hne : ns ≠ []) (h : ∀ m ∈ ns, m.isComment = false) (ms more : List Mark) :
    comments (ms ++ (ns ++ more)) = comments ms ++ comments more := by
  obtain ⟨n, ns, rfl⟩ := List.exists_cons_of_ne_nil hne
  obtain ⟨hn, hns⟩ := List.forall_mem_cons.1 h
  rw [List.cons_append, comments_append_cons hn]
  congr 1
  rcases List.eq_nil_or_concat ns with rfl | ⟨init, last, rfl⟩
  · rfl
  · have hlast := hns last (by simp)
    rw [List.concat_eq_append, List.append_assoc, List.singleton_append,
      comments_append_cons hlast, comments_of_forall fun m hm => hns m (by simp [hm])]
    rfl

end Resettle.Php
