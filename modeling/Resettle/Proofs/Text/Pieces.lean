import Resettle.Text.Lines
import Resettle.Text.Search

/-!
# Texts line by line

What `split`, `pieces` and `drop?` do to a text that is put together around a separator, and the
induction on a text whose steps are its lines.
-/

namespace Resettle.Text

variable {sep : Char} {cs : List Char}

theorem split_of_notMem (h : sep ∉ cs) : split sep cs = [cs] := by
  induction cs with
  | nil => rfl
  | cons c cs ih =>
      simp only [List.mem_cons, not_or] at h
      simp [split, Ne.symm h.1, ih h.2]

theorem split_append_cons (sep : Char) (cs rest : List Char) :
    split sep (cs ++ sep :: rest) = split sep cs ++ split sep rest := by
  induction cs with
  | nil => simp [split]
  | cons c cs ih =>
      by_cases hc : c = sep
      · simp [split, hc, ih]
      · obtain ⟨piece, more, hs⟩ := List.exists_cons_of_ne_nil (split_ne_nil sep cs)
        simp [split, hc, ih, hs]

theorem exists_mem_split {c : Char} (hmem : c ∈ cs) (hc : c ≠ sep) :
    ∃ piece ∈ split sep cs, c ∈ piece := by
  induction cs with
  | nil => cases hmem
  | cons d cs ih =>
      by_cases hd : d = sep
      · obtain ⟨piece, hpiece, hcs⟩ := ih (List.mem_of_ne_of_mem (hd ▸ hc) hmem)
        exact ⟨piece, by simp [split, hd, hpiece], hcs⟩
      · obtain ⟨first, rest, hs⟩ := List.exists_cons_of_ne_nil (split_ne_nil sep cs)
        simp only [split, if_neg hd, hs]
        rcases List.mem_cons.1 hmem with rfl | hmem
        · exact ⟨c :: first, List.mem_cons_self, List.mem_cons_self⟩
        · obtain ⟨piece, hpiece, hcs⟩ := ih hmem
          rw [hs] at hpiece
          rcases List.mem_cons.1 hpiece with rfl | hpiece
          · exact ⟨d :: piece, List.mem_cons_self, List.mem_cons_of_mem d hcs⟩
          · exact ⟨piece, List.mem_cons_of_mem _ hpiece, hcs⟩

/-- What stands in front of the first separator is told by the whole text. -/
theorem front_unique {front front' rest rest' : List Char} (h : sep ∉ front) (h' : sep ∉ front')
    (heq : front ++ sep :: rest = front' ++ sep :: rest') : front = front' ∧ rest = rest' := by
  have hsplit := congrArg (split sep) heq
  rw [split_append_cons, split_append_cons, split_of_notMem h, split_of_notMem h'] at hsplit
  obtain rfl : front = front' := (List.cons.inj hsplit).1
  exact ⟨rfl, (List.cons.inj (List.append_cancel_left heq)).2⟩

theorem pieces_of_notMem (h : '\n' ∉ cs) : pieces cs = [cs] :=
  split_of_notMem h

theorem pieces_append_cons (cs rest : List Char) :
    pieces (cs ++ '\n' :: rest) = pieces cs ++ pieces rest :=
  split_append_cons '\n' cs rest

theorem lines_append_feed (h : '\n' ∉ cs) (rest : List Char) :
    lines (cs ++ '\n' :: rest) = dropReturn cs :: lines rest := by
  obtain ⟨last, ended, hrest⟩ := List.exists_cons_of_ne_nil
    (List.reverse_ne_nil_iff.2 (split_ne_nil '\n' rest) : (pieces rest).reverse ≠ [])
  have hpieces : (pieces (cs ++ '\n' :: rest)).reverse = last :: (ended ++ [cs]) := by
    rw [pieces_append_cons, pieces_of_notMem h, List.reverse_append, hrest]
    rfl
  simp [lines, hpieces, hrest]

theorem lines_of_notMem (h : '\n' ∉ cs) (hne : cs ≠ []) : lines cs = [cs] := by
  simp [lines, pieces_of_notMem h, hne]

theorem join_cons {pieces : List (List Char)} (h : pieces ≠ []) (sep : Char) (piece : List Char) :
    join sep (piece :: pieces) = piece ++ sep :: join sep pieces := by
  cases pieces with
  | nil => exact absurd rfl h
  | cons next more => rfl

theorem join_concat {pieces : List (List Char)} (h : pieces ≠ []) (sep : Char) (last : List Char) :
    join sep (pieces ++ [last]) = join sep pieces ++ sep :: last := by
  induction pieces with
  | nil => exact absurd rfl h
  | cons piece more ih =>
      cases more with
      | nil => rfl
      | cons next more =>
          rw [List.cons_append, join_cons (by simp), join_cons (by simp), ih (by simp),
            List.append_assoc, List.cons_append]

/-- Lines that do not end in a carriage return are read back, if the last one is not empty. -/
theorem lines_join {ls : List (List Char)} {last : List Char}
    (h : ∀ line ∈ ls, '\n' ∉ line ∧ line.getLast? ≠ some '\r') (hlast : '\n' ∉ last)
    (hne : last ≠ []) : lines (join '\n' (ls ++ [last])) = ls ++ [last] := by
  induction ls with
  | nil => exact lines_of_notMem hlast hne
  | cons line ls ih =>
      obtain ⟨⟨hline, hreturn⟩, hrest⟩ := List.forall_mem_cons.1 h
      rw [List.cons_append, join_cons (by simp), lines_append_feed hline, ih hrest, dropReturn,
        if_neg hreturn]

theorem notMem_of_mem_lines {line : List Char} (h : line ∈ lines cs) : '\n' ∉ line := by
  have hpiece : ∀ piece ∈ (pieces cs).reverse, '\n' ∉ piece := fun piece hp =>
    sep_notMem_of_mem_split (List.mem_reverse.1 hp)
  unfold lines at h
  split at h
  · cases h
  · next last ended hcut =>
      rw [hcut] at hpiece
      rcases List.mem_append.1 h with h | h
      · obtain ⟨piece, hp, rfl⟩ := List.mem_map.1 (List.mem_reverse.1 h)
        have hno := hpiece piece (List.mem_cons_of_mem _ hp)
        unfold dropReturn
        split
        · exact fun hmem => hno (List.dropLast_subset piece hmem)
        · exact hno
      · split at h
        · cases h
        · rw [List.mem_singleton.1 h]
          exact hpiece last List.mem_cons_self

theorem pieces_inj {cs ds : List Char} (h : pieces cs = pieces ds) : cs = ds := by
  have hj := congrArg (join '\n') h
  simpa [pieces] using hj

/-- Induction on the lines of a text: the last line ends without a line feed, and every other one
is followed by a line feed and the rest of the text. -/
theorem line_induction {P : List Char → Prop} (last : ∀ line, '\n' ∉ line → P line)
    (more : ∀ line rest, '\n' ∉ line → P rest → P (line ++ '\n' :: rest)) (cs : List Char) :
    P cs := by
  suffices h : ∀ line, '\n' ∉ line → P (line ++ cs) by simpa using h [] (by simp)
  induction cs with
  | nil => intro line hline; simpa using last line hline
  | cons c cs ih =>
      intro line hline
      by_cases hc : c = '\n'
      · subst hc
        exact more line cs hline (by simpa using ih [] (by simp))
      · simpa using ih (line ++ [c]) (by simp [hline, Ne.symm hc])

/-- A beginning without the separator stands in front of it or not at all. -/
theorem drop?_append_cons {lead : List Char} (h : sep ∉ lead) (cs rest : List Char) :
    drop? lead (cs ++ sep :: rest) = (drop? lead cs).map (· ++ sep :: rest) := by
  induction lead generalizing cs with
  | nil => simp [drop?]
  | cons l lead ih =>
      simp only [List.mem_cons, not_or] at h
      cases cs with
      | nil => simp [drop?, Ne.symm h.1]
      | cons c cs =>
          by_cases hl : l = c
          · simpa [drop?, hl] using ih h.2 cs
          · simp [drop?, hl]

theorem dropWhile_append_cons {p : Char → Bool} (hp : p sep = false) (cs rest : List Char) :
    (cs ++ sep :: rest).dropWhile p = cs.dropWhile p ++ sep :: rest := by
  induction cs with
  | nil => simp [hp]
  | cons c cs ih => by_cases hc : p c <;> simp [hc, ih]

end Resettle.Text
