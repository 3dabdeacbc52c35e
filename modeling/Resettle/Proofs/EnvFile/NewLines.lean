import Mathlib.Data.List.Basic
import Resettle.Proofs.EnvFile.Assignments

/-!
# New lines of an environment file

A key without a line gets one.  `splitBehindLast` is followed line by line: it cuts a text at the
end of the last line with a given start, and cuts none without such a line.  The main statement
says that the new line stands between the lines that are there, at a place that does not depend on
the value.
-/

namespace Resettle.EnvFile

variable {key start line content : List Char}

/-! ## Values line by line -/

@[simp] theorem values_nil (key : List Char) : values key [] = [] := by
  simp [values, Text.pieces, Text.split]

theorem values_append_cons (key cs rest : List Char) :
    values key (cs ++ '\n' :: rest) = values key cs ++ values key rest := by
  simp [values, Text.pieces_append_cons]

theorem values_of_notMem (h : '\n' ∉ content) :
    values key content = (valueOn? key content).toList := by
  rw [values, Text.pieces_of_notMem h]
  cases h : valueOn? key content <;> simp [h]

theorem takeWhile_concat_of_neg {p : Char → Bool} {c : Char} (hc : p c = false) (cs : List Char) :
    (cs ++ [c]).takeWhile p = cs.takeWhile p := by
  induction cs with
  | nil => simp [hc]
  | cons d cs ih => by_cases hd : p d <;> simp [hd, ih]

/-- A carriage return at the end of a line is no part of what it assigns. -/
theorem valueOn?_append_return (key line : List Char) :
    valueOn? key (line ++ ['\r']) = valueOn? key line := by
  cases hdrop : Text.drop? (key ++ ['=']) line with
  | some rest =>
      have hmore : Text.drop? (key ++ ['=']) (line ++ ['\r']) = some (rest ++ ['\r']) :=
        Text.drop?_eq_some_iff.2 (by simp [Text.drop?_eq_some_iff.1 hdrop])
      rw [valueOn?, valueOn?, hmore, hdrop, Option.map_some, Option.map_some,
        takeWhile_concat_of_neg (by decide)]
  | none =>
      have hmore : ¬ (valueOn? key (line ++ ['\r'])).isSome := by
        rw [valueOn?_isSome_iff]
        rintro ⟨rest, hrest⟩
        rcases List.eq_nil_or_concat rest with rfl | ⟨rest, c, rfl⟩
        · have hlast := (List.append_singleton_inj.1 hrest).2
          exact absurd hlast (by decide)
        · have hsame : line ++ ['\r'] = (key ++ ['='] ++ rest) ++ [c] := by simpa using hrest
          rw [Text.drop?_eq_some_iff.2 (List.append_singleton_inj.1 hsame).1] at hdrop
          cases hdrop
      rw [Option.not_isSome_iff_eq_none] at hmore
      rw [hmore, valueOn?, hdrop, Option.map_none]

/-- Empty lines and carriage returns at the end of a text assign nothing. -/
theorem values_dropWhileEnd (key content : List Char) :
    values key (Text.dropWhileEnd isLineEnd content) = values key content := by
  have step : ∀ reversed : List Char,
      values key (reversed.dropWhile isLineEnd).reverse = values key reversed.reverse := by
    intro reversed
    induction reversed with
    | nil => rfl
    | cons c reversed ih =>
        by_cases hc : isLineEnd c
        · rw [List.dropWhile_cons_of_pos hc, ih, List.reverse_cons]
          have hend : c = '\r' ∨ c = '\n' := by simpa [isLineEnd] using hc
          rcases hend with rfl | rfl
          · generalize reversed.reverse = cs
            induction cs using Text.line_induction with
            | last line hline =>
                rw [values_of_notMem hline, values_of_notMem (by simp [hline]),
                  valueOn?_append_return]
            | more line rest hline ih =>
                rw [List.append_assoc, List.cons_append, values_append_cons, values_append_cons, ih]
          · rw [values_append_cons, values_nil, List.append_nil]
        · rw [List.dropWhile_cons_of_neg hc]
  simpa [Text.dropWhileEnd] using step content.reverse

/-! ## Behind the last line with a given start -/

theorem splitBehindLast_nil (start : List Char) (lineStart : Bool) :
    splitBehindLast start lineStart [] = none := by
  rw [splitBehindLast]

theorem splitBehindLast_false_cons (c : Char) (rest : List Char) :
    splitBehindLast start false (c :: rest) =
      (splitBehindLast start (c == '\n') rest).map fun found => (c :: found.1, found.2) := by
  rw [splitBehindLast]
  simp

theorem splitBehindLast_true_of_none {c : Char} {rest : List Char}
    (h : Text.drop? start (c :: rest) = none) :
    splitBehindLast start true (c :: rest) =
      (splitBehindLast start (c == '\n') rest).map fun found => (c :: found.1, found.2) := by
  rw [splitBehindLast]
  split
  · next found htaken => simp [h] at htaken
  · rfl

theorem splitBehindLast_true_of_some {c : Char} {rest behind : List Char} (hstart : start ≠ [])
    (h : Text.drop? start (c :: rest) = some behind) :
    splitBehindLast start true (c :: rest) =
      match splitBehindLast start ((start ++ (takeLine behind).1).getLast? == some '\n')
          (takeLine behind).2 with
      | some (more, last) => some (start ++ (takeLine behind).1 ++ more, last)
      | none => some (start ++ (takeLine behind).1, (takeLine behind).2) := by
  rw [splitBehindLast]
  split
  · next found htaken =>
      obtain rfl : behind = found := by simpa [hstart, h] using htaken
      rfl
  · next htaken => simp [hstart, h] at htaken

theorem splitBehindLast_false_append (h : '\n' ∉ line) (rest : List Char) :
    splitBehindLast start false (line ++ rest) =
      (splitBehindLast start false rest).map fun found => (line ++ found.1, found.2) := by
  induction line with
  | nil => simp
  | cons c line ih =>
      simp only [List.mem_cons, not_or] at h
      have hc : (c == '\n') = false := by simpa using Ne.symm h.1
      rw [List.cons_append, splitBehindLast_false_cons, hc, ih h.2, Option.map_map]
      rfl

theorem takeLine_append_cons (h : '\n' ∉ line) (rest : List Char) :
    takeLine (line ++ '\n' :: rest) = (line ++ ['\n'], rest) := by
  induction line with
  | nil => rfl
  | cons c line ih =>
      simp only [List.mem_cons, not_or] at h
      simp [takeLine, Ne.symm h.1, ih h.2]

theorem takeLine_of_notMem (h : '\n' ∉ line) : takeLine line = (line, []) := by
  induction line with
  | nil => rfl
  | cons c line ih =>
      simp only [List.mem_cons, not_or] at h
      simp [takeLine, Ne.symm h.1, ih h.2]

theorem splitBehindLast_skip (hline : '\n' ∉ line) (rest : List Char)
    (h : Text.drop? start (line ++ '\n' :: rest) = none) :
    splitBehindLast start true (line ++ '\n' :: rest) =
      (splitBehindLast start true rest).map fun found => (line ++ '\n' :: found.1, found.2) := by
  cases line with
  | nil => exact splitBehindLast_true_of_none h
  | cons c line =>
      simp only [List.mem_cons, not_or] at hline
      have hc : (c == '\n') = false := by simpa using Ne.symm hline.1
      rw [List.cons_append] at h ⊢
      rw [splitBehindLast_true_of_none h, hc, splitBehindLast_false_append hline.2,
        splitBehindLast_false_cons, Option.map_map, Option.map_map]
      rfl

/-- The text is cut behind its first line only if no later line starts with `start`. -/
theorem splitBehindLast_append_cons (hstart : start ≠ []) (hfeed : '\n' ∉ start)
    (hline : '\n' ∉ line) (rest : List Char) :
    splitBehindLast start true (line ++ '\n' :: rest) =
      match splitBehindLast start true rest with
      | some (more, last) => some (line ++ '\n' :: more, last)
      | none => if start <+: line then some (line ++ ['\n'], rest) else none := by
  have htaken := Text.drop?_append_cons hfeed line rest
  cases hdrop : Text.drop? start line with
  | some tail =>
      obtain rfl := Text.drop?_eq_some_iff.1 hdrop
      obtain ⟨c, more, hc⟩ : ∃ c more, start ++ tail ++ '\n' :: rest = c :: more :=
        List.exists_cons_of_ne_nil (by simp)
      have htail : '\n' ∉ tail := fun hmem => hline (List.mem_append_right _ hmem)
      have hlast : (start ++ (tail ++ ['\n'])).getLast? = some '\n' := by simp
      rw [hdrop, Option.map_some, hc] at htaken
      rw [hc, splitBehindLast_true_of_some hstart htaken, takeLine_append_cons htail, hlast,
        if_pos (List.prefix_append _ _)]
      simp
  | none =>
      have hbegins : ¬ start <+: line := by
        rintro ⟨tail, rfl⟩
        simp at hdrop
      rw [hdrop, Option.map_none] at htaken
      rw [splitBehindLast_skip hline rest htaken, if_neg hbegins]
      cases splitBehindLast start true rest <;> rfl

theorem splitBehindLast_of_notMem (hstart : start ≠ []) (hline : '\n' ∉ line) :
    splitBehindLast start true line = if start <+: line then some (line, []) else none := by
  have hpassed : splitBehindLast start false line = none := by
    have happend : splitBehindLast start false (line ++ []) = _ :=
      splitBehindLast_false_append hline []
    simpa [splitBehindLast_nil] using happend
  cases hdrop : Text.drop? start line with
  | some tail =>
      obtain rfl := Text.drop?_eq_some_iff.1 hdrop
      obtain ⟨c, more, hc⟩ : ∃ c more, start ++ tail = c :: more :=
        List.exists_cons_of_ne_nil (by simp [hstart])
      have htail : '\n' ∉ tail := fun hmem => hline (List.mem_append_right _ hmem)
      rw [hc] at hdrop
      rw [hc, splitBehindLast_true_of_some hstart hdrop, takeLine_of_notMem htail,
        splitBehindLast_nil, ← hc, if_pos (List.prefix_append _ _)]
  | none =>
      have hbegins : ¬ start <+: line := by
        rintro ⟨tail, rfl⟩
        simp at hdrop
      rw [if_neg hbegins]
      cases line with
      | nil => exact splitBehindLast_nil start true
      | cons c line =>
          simp only [List.mem_cons, not_or] at hline
          have hc : (c == '\n') = false := by simpa using Ne.symm hline.1
          rw [splitBehindLast_false_cons, hc] at hpassed
          rw [splitBehindLast_true_of_none hdrop, hc, hpassed]

/-- `head` is a text up to the end of the last of its lines that start with `start`.  A line feed
parts it from `behind`, or the text ends with it. -/
structure IsCut (start content head behind : List Char) : Prop where
  whole : content = head ++ '\n' :: behind ∨ content = head ∧ behind = []
  last : ∃ line, (Text.pieces head).getLast? = some line ∧ start <+: line
  later : ∀ line ∈ Text.pieces behind, ¬ start <+: line

theorem IsCut.getLast?_ne {head behind : List Char} (h : IsCut start content head behind)
    (hstart : start ≠ []) : head.getLast? ≠ some '\n' := by
  intro hfeed
  obtain ⟨init, rfl⟩ := List.getLast?_eq_some_iff.1 hfeed
  obtain ⟨line, hline, hbegins⟩ := h.last
  rw [Text.pieces_append_cons] at hline
  have hempty : line = [] := by simpa [Text.pieces, Text.split, eq_comm] using hline
  exact hstart (List.prefix_nil.1 (hempty ▸ hbegins))

theorem not_begins_of_mem_pieces_nil (hstart : start ≠ []) :
    ∀ line ∈ Text.pieces [], ¬ start <+: line := by
  simpa [Text.pieces, Text.split] using hstart

/-- A line more in front of the text stands in front of the cut. -/
theorem IsCut.more {head behind : List Char} (h : IsCut start content head behind)
    (line : List Char) : IsCut start (line ++ '\n' :: content) (line ++ '\n' :: head) behind where
  whole := by
    refine h.whole.imp (fun hcontent => ?_) (fun hcontent => ⟨?_, hcontent.2⟩)
    · rw [hcontent, List.append_assoc, List.cons_append]
    · rw [hcontent.1]
  last := by
    obtain ⟨sibling, hsibling, hbegins⟩ := h.last
    refine ⟨sibling, ?_, hbegins⟩
    rw [Text.pieces_append_cons, List.getLast?_append, hsibling]
    rfl
  later := h.later

theorem splitBehindLast_eq_none_iff (hstart : start ≠ []) (hfeed : '\n' ∉ start) :
    splitBehindLast start true content = none ↔ ∀ line ∈ Text.pieces content, ¬ start <+: line := by
  induction content using Text.line_induction with
  | last line hline =>
      rw [splitBehindLast_of_notMem hstart hline, Text.pieces_of_notMem hline]
      simp
  | more line rest hline ih =>
      rw [splitBehindLast_append_cons hstart hfeed hline, Text.pieces_append_cons,
        Text.pieces_of_notMem hline, List.forall_mem_append, ← ih]
      cases splitBehindLast start true rest <;> simp

theorem isCut_of_notMem (hstart : start ≠ []) (hline : '\n' ∉ line) (hbegins : start <+: line) :
    IsCut start line line [] where
  whole := .inr ⟨rfl, rfl⟩
  last := ⟨line, by rw [Text.pieces_of_notMem hline]; rfl, hbegins⟩
  later := not_begins_of_mem_pieces_nil hstart

/-- The text is cut at the end of a line: behind its line feed, if it has one. -/
theorem exists_isCut {front behind : List Char} (hstart : start ≠ []) (hfeed : '\n' ∉ start)
    (h : splitBehindLast start true content = some (front, behind)) :
    ∃ head, IsCut start content head behind ∧ (front = head ++ ['\n'] ∨ front = head) := by
  induction content using Text.line_induction generalizing front with
  | last line hline =>
      rw [splitBehindLast_of_notMem hstart hline] at h
      split at h
      · next hbegins =>
          obtain ⟨rfl, rfl⟩ : line = front ∧ [] = behind := by simpa using h
          exact ⟨line, isCut_of_notMem hstart hline hbegins, .inr rfl⟩
      · cases h
  | more line rest hline ih =>
      rw [splitBehindLast_append_cons hstart hfeed hline] at h
      cases hrest : splitBehindLast start true rest with
      | some found =>
          rw [hrest] at h
          obtain ⟨rfl, rfl⟩ : line ++ '\n' :: found.1 = front ∧ found.2 = behind := by simpa using h
          obtain ⟨head, hcut, hfront⟩ := ih hrest
          refine ⟨line ++ '\n' :: head, hcut.more line, ?_⟩
          refine hfront.imp (fun hfront => ?_) (fun hfront => ?_) <;> rw [hfront]
          rw [List.append_assoc, List.cons_append]
      | none =>
          have hlater := (splitBehindLast_eq_none_iff hstart hfeed).1 hrest
          simp only [hrest] at h
          split at h
          · next hbegins =>
              obtain ⟨rfl, rfl⟩ : line ++ ['\n'] = front ∧ rest = behind := by simpa using h
              have hlast := (isCut_of_notMem hstart hline hbegins).last
              exact ⟨line, ⟨.inl rfl, hlast, hlater⟩, .inl rfl⟩
          · cases h

/-! ## A new line -/

/-- The start of the lines behind which a new line of a key goes. -/
def siblingStart (key : List Char) : List Char :=
  keyPrefix key ++ ['_']

theorem siblingStart_ne_nil (key : List Char) : siblingStart key ≠ [] := by
  simp [siblingStart]

theorem newline_notMem_siblingStart (hkey : '\n' ∉ key) : '\n' ∉ siblingStart key := by
  have hbegins : '\n' ∉ keyPrefix key := fun hmem => hkey ((List.takeWhile_sublist _).mem hmem)
  simp [siblingStart, hbegins]

/-- A new line goes behind the last line that starts as the key does. -/
theorem setChars_of_some {front behind : List Char} (hkey : '\n' ∉ key)
    (h : assigns key true content = false)
    (hsplit : splitBehindLast (siblingStart key) true content = some (front, behind)) :
    ∃ head, IsCut (siblingStart key) content head behind ∧ ∀ value,
      setChars content key value = head ++ '\n' :: (assignment key value ++ '\n' :: behind) := by
  have hstart := siblingStart_ne_nil key
  obtain ⟨head, hcut, hfront⟩ := exists_isCut hstart (newline_notMem_siblingStart hkey) hsplit
  refine ⟨head, hcut, fun value => ?_⟩
  have hfront : front ++ (if front.getLast? = some '\n' then [] else ['\n']) = head ++ ['\n'] := by
    rcases hfront with rfl | rfl
    · simp
    · rw [if_neg (hcut.getLast?_ne hstart)]
  rw [siblingStart] at hsplit
  simp only [setChars, h, hsplit, hfront, Bool.false_eq_true, if_false]
  simp

theorem setChars_of_none (h : assigns key true content = false)
    (hsplit : splitBehindLast (siblingStart key) true content = none) (value : List Char) :
    setChars content key value =
      Text.dropWhileEnd isLineEnd content ++
        (if Text.dropWhileEnd isLineEnd content = [] then [] else ['\n']) ++
          assignment key value ++ ['\n'] := by
  rw [siblingStart] at hsplit
  simp only [setChars, h, hsplit, Bool.false_eq_true, if_false]

/-- A key without a line gets one: it stands between the lines that are there, at the same place
for every value. -/
theorem exists_insertion (hkey : '\n' ∉ key) (h : assigns key true content = false) :
    ∃ before after : List (List Char),
      (∀ k, values k content = before.filterMap (valueOn? k) ++ after.filterMap (valueOn? k)) ∧
      ∀ value, Text.pieces (setChars content key value) =
        before ++ assignment key value :: after := by
  cases hsplit : splitBehindLast (siblingStart key) true content with
  | some found =>
      obtain ⟨head, hcut, hset⟩ := setChars_of_some hkey h hsplit
      refine ⟨Text.pieces head, Text.pieces found.2, fun k => ?_, fun value => ?_⟩
      · rcases hcut.whole with hwhole | ⟨hwhole, hbehind⟩
        · rw [hwhole, values_append_cons, values, values]
        · rw [hwhole, hbehind, ← values, ← values, values_nil, List.append_nil]
      · rw [hset, Text.pieces_append_cons, Text.pieces_append_cons,
          Text.pieces_of_notMem (newline_notMem_assignment hkey value)]
        rfl
  | none =>
      have hset := setChars_of_none h hsplit
      have hvalues := fun k => values_dropWhileEnd k content
      generalize Text.dropWhileEnd isLineEnd content = kept at hset hvalues
      refine ⟨if kept = [] then [] else Text.pieces kept, [[]], fun k => ?_, fun value => ?_⟩
      · rw [← hvalues k]
        split
        · next hkept => simp [hkept]
        · simp [values]
      · have hline := Text.pieces_of_notMem (newline_notMem_assignment hkey value)
        have hend : Text.pieces (assignment key value ++ ['\n']) = [assignment key value, []] := by
          rw [Text.pieces_append_cons, hline]
          rfl
        rw [hset]
        split
        · next hkept => simp [hkept, hend]
        · rw [List.append_assoc, List.append_assoc, List.singleton_append, Text.pieces_append_cons,
            hend]

end Resettle.EnvFile
