import Mathlib.Data.List.Basic
import Resettle.Proofs.EnvFile.NewLines

/-!
# Setting the values of an environment file

Each update of a file is followed through the values that its lines assign.  A key that is set has
its new value on every one of its lines, and there is one; the values of all other keys stay.  The
main statement carries this through a list of updates, and says that the list changes nothing when
it is applied once more.
-/

namespace Resettle.EnvFile

variable {key other content : List Char}

/-! ## One update -/

theorem values_eq_nil_iff : values key content = [] ↔
    ∀ line ∈ Text.pieces content, valueOn? key line = none := by
  simp [values, List.filterMap_eq_nil_iff]

theorem assigns_eq_true_iff (hkey : '\n' ∉ key) :
    assigns key true content = true ↔ values key content ≠ [] := by
  rw [assigns_eq_any hkey, Ne, values_eq_nil_iff, List.any_eq_true]
  simp [Option.isSome_iff_ne_none]

/-- A key that has lines gets its new value on each of them, and nothing else changes. -/
theorem pieces_setChars_of_values_ne_nil (hkey : '\n' ∉ key) (h : values key content ≠ [])
    (value : List Char) :
    Text.pieces (setChars content key value) =
      (Text.pieces content).map (rewriteLine key (assignment key value)) := by
  rw [setChars, if_pos ((assigns_eq_true_iff hkey).2 h),
    pieces_replaceLines hkey (newline_notMem_assignment hkey value)]

/-- Behind the value of a line stands a carriage return or nothing. -/
theorem takeWhile_append_dropWhile_inValue {value rest : List Char} (hvalue : '\r' ∉ value)
    (hrest : '\n' ∉ rest) : (value ++ rest.dropWhile inValue).takeWhile (· ≠ '\r') = value := by
  rw [List.takeWhile_append_of_pos (fun c hc => by simpa using fun h : c = '\r' => hvalue (h ▸ hc))]
  cases hdrop : rest.dropWhile inValue with
  | nil => simp
  | cons c more =>
      have hstop : inValue c = false := by
        have := List.head?_dropWhile_not inValue rest
        simpa [hdrop] using this
      have hmem : c ∈ rest := (List.dropWhile_sublist inValue).mem (by simp [hdrop])
      have hc : c ≠ '\n' := fun h => hrest (h ▸ hmem)
      simp_all [inValue]

theorem valueOn?_rewriteLine_self (value : List Char) {line : List Char} (hline : '\n' ∉ line) :
    valueOn? key (rewriteLine key (assignment key value) line) =
      (valueOn? key line).map fun _ => writtenValue value := by
  cases hdrop : Text.drop? (key ++ ['=']) line with
  | some rest =>
      have hmore : Text.drop? (key ++ ['=']) (assignment key value ++ rest.dropWhile inValue) =
          some (writtenValue value ++ rest.dropWhile inValue) :=
        Text.drop?_eq_some_iff.2 (by simp [assignment])
      have hrest : '\n' ∉ rest := by
        intro hmem
        exact hline (by simp [Text.drop?_eq_some_iff.1 hdrop, hmem])
      simp only [rewriteLine, valueOn?, hdrop, hmore, Option.map_some, Option.some.injEq]
      exact takeWhile_append_dropWhile_inValue (notMem_writtenValue (.inr rfl) value) hrest
  | none => simp [rewriteLine, valueOn?, hdrop]

theorem valueOn?_rewriteLine_of_ne (hkey : '=' ∉ key) (hother : '=' ∉ other) (hne : key ≠ other)
    (value line : List Char) :
    valueOn? other (rewriteLine key (assignment key value) line) = valueOn? other line := by
  cases hdrop : Text.drop? (key ++ ['=']) line with
  | some rest =>
      have hline : line = key ++ '=' :: rest := by simpa using Text.drop?_eq_some_iff.1 hdrop
      rw [hline, rewriteLine_append, assignment, List.append_assoc, List.cons_append,
        valueOn?_eq_none_of_ne hkey hother hne, valueOn?_eq_none_of_ne hkey hother hne]
  | none => rw [rewriteLine_of_none (by simp [valueOn?, hdrop])]

theorem newline_notMem_of_mem_pieces {line : List Char} (h : line ∈ Text.pieces content) :
    '\n' ∉ line :=
  Text.sep_notMem_of_mem_split h

theorem values_setChars_self (hkey : '\n' ∉ key) (content value : List Char) :
    values key (setChars content key value) ≠ [] ∧
      ∀ w ∈ values key (setChars content key value), w = writtenValue value := by
  by_cases h : values key content = []
  · have hassigns : assigns key true content = false := by
      rw [← Bool.not_eq_true, assigns_eq_true_iff hkey]
      exact fun hne => hne h
    obtain ⟨before, after, hvalues, hlines⟩ := exists_insertion hkey hassigns
    obtain ⟨hbefore, hafter⟩ := List.append_eq_nil_iff.1 ((hvalues key).symm.trans h)
    rw [values, hlines, List.filterMap_append, List.filterMap_cons, valueOn?_assignment, hbefore,
      hafter]
    simp
  · have hvalues : values key (setChars content key value) =
        (values key content).map fun _ => writtenValue value := by
      rw [values, pieces_setChars_of_values_ne_nil hkey h, List.filterMap_map, values,
        List.map_filterMap]
      exact List.filterMap_congr fun line hline =>
        valueOn?_rewriteLine_self value (newline_notMem_of_mem_pieces hline)
    rw [hvalues]
    exact ⟨by simpa using h, by simp⟩

theorem values_setChars_of_ne (hkey : IsKey key) (hother : IsKey other) (hne : key ≠ other)
    (content value : List Char) :
    values other (setChars content key value) = values other content := by
  by_cases h : values key content = []
  · have hassigns : assigns key true content = false := by
      rw [← Bool.not_eq_true, assigns_eq_true_iff hkey.2]
      exact fun hne => hne h
    obtain ⟨before, after, hvalues, hlines⟩ := exists_insertion hkey.2 hassigns
    have hnone := valueOn?_eq_none_of_ne hkey.1 hother.1 hne (writtenValue value)
    rw [hvalues, values, hlines, List.filterMap_append, List.filterMap_cons, assignment, hnone]
  · rw [values, pieces_setChars_of_values_ne_nil hkey.2 h, List.filterMap_map, values]
    exact List.filterMap_congr fun line _ =>
      valueOn?_rewriteLine_of_ne hkey.1 hother.1 hne value line

/-! ## Lists of updates -/

/-- The value of the last update of a key. -/
def lastValue? {κ α : Type} [DecidableEq κ] (key : κ) : List (κ × α) → Option α
  | [] => none
  | u :: updates => (lastValue? key updates).or (if u.1 = key then some u.2 else none)

theorem lastValue?_eq_none_iff {κ α : Type} [DecidableEq κ] {key : κ} {updates : List (κ × α)} :
    lastValue? key updates = none ↔ ∀ u ∈ updates, u.1 ≠ key := by
  induction updates with
  | nil => simp [lastValue?]
  | cons u updates ih => simp [lastValue?, Option.or_eq_none_iff, ih, and_comm]

def setEach (content : List Char) (updates : List (List Char × List Char)) : List Char :=
  updates.foldl (fun content u => setChars content u.1 u.2) content

variable {updates : List (List Char × List Char)}

theorem values_setEach_of_notMem (keys : ∀ u ∈ updates, IsKey u.1) (hkey : IsKey key)
    (hne : ∀ u ∈ updates, u.1 ≠ key) (content : List Char) :
    values key (setEach content updates) = values key content := by
  induction updates generalizing content with
  | nil => rfl
  | cons u updates ih =>
      simp only [List.forall_mem_cons] at keys hne
      rw [setEach, List.foldl_cons, ← setEach, ih keys.2 hne.2,
        values_setChars_of_ne keys.1 hkey hne.1]

/-- Each key of a list of updates ends with the value of its last update. -/
theorem values_setEach {value : List Char} (keys : ∀ u ∈ updates, IsKey u.1) (hkey : IsKey key)
    (hlast : lastValue? key updates = some value) (content : List Char) :
    values key (setEach content updates) ≠ [] ∧
      ∀ w ∈ values key (setEach content updates), w = writtenValue value := by
  induction updates generalizing content with
  | nil => cases hlast
  | cons u updates ih =>
      simp only [List.forall_mem_cons] at keys
      rw [setEach, List.foldl_cons, ← setEach]
      cases hrest : lastValue? key updates with
      | some later =>
          have hvalue : later = value := by simpa [lastValue?, hrest] using hlast
          exact ih keys.2 (hvalue ▸ hrest) _
      | none =>
          obtain ⟨rfl, rfl⟩ : u.1 = key ∧ u.2 = value := by simpa [lastValue?, hrest] using hlast
          rw [values_setEach_of_notMem keys.2 hkey (lastValue?_eq_none_iff.1 hrest)]
          exact values_setChars_self hkey.2 content u.2

def rewriteEach (line : List Char) (updates : List (List Char × List Char)) : List Char :=
  updates.foldl (fun line u => rewriteLine u.1 (assignment u.1 u.2) line) line

theorem pieces_setEach (keys : ∀ u ∈ updates, IsKey u.1) {content : List Char}
    (hvalues : ∀ u ∈ updates, values u.1 content ≠ []) :
    Text.pieces (setEach content updates) =
      (Text.pieces content).map fun line => rewriteEach line updates := by
  induction updates generalizing content with
  | nil => simp [setEach, rewriteEach]
  | cons u updates ih =>
      simp only [List.forall_mem_cons] at keys hvalues
      have hstep := pieces_setChars_of_values_ne_nil keys.1.2 hvalues.1 u.2
      have hkept : ∀ v ∈ updates, values v.1 (setChars content u.1 u.2) ≠ [] := by
        intro v hv
        by_cases hne : u.1 = v.1
        · rw [← hne]
          exact (values_setChars_self keys.1.2 content u.2).1
        · rw [values_setChars_of_ne keys.1 (keys.2 v hv) hne]
          exact hvalues.2 v hv
      rw [setEach, List.foldl_cons, ← setEach, ih keys.2 hkept, hstep, List.map_map]
      rfl

theorem dropWhile_writtenValue_append (value rest : List Char) :
    (writtenValue value ++ rest.dropWhile inValue).dropWhile inValue = rest.dropWhile inValue := by
  rw [List.dropWhile_append_of_pos, List.dropWhile_eq_self_iff]
  · intro hl
    simpa using List.dropWhile_get_zero_not inValue rest hl
  intro c hc
  have hfeed : c ≠ '\n' := fun h => notMem_writtenValue (.inl rfl) value (h ▸ hc)
  have hreturn : c ≠ '\r' := fun h => notMem_writtenValue (.inr rfl) value (h ▸ hc)
  simp [inValue, hfeed, hreturn]

/-- A line keeps its key, and gets the value of the last update of it. -/
theorem rewriteEach_append (keys : ∀ u ∈ updates, IsKey u.1) (hkey : IsKey key)
    (rest : List Char) :
    rewriteEach (key ++ '=' :: rest) updates = key ++ '=' ::
      match lastValue? key updates with
      | some value => writtenValue value ++ rest.dropWhile inValue
      | none => rest := by
  induction updates generalizing rest with
  | nil => rfl
  | cons u updates ih =>
      simp only [List.forall_mem_cons] at keys
      rw [rewriteEach, List.foldl_cons, ← rewriteEach]
      by_cases hne : u.1 = key
      · rw [hne, rewriteLine_append, assignment, List.append_assoc, List.cons_append, ih keys.2,
          dropWhile_writtenValue_append]
        cases hlast : lastValue? key updates <;> simp [lastValue?, hlast, hne]
      · have hnone := valueOn?_eq_none_of_ne hkey.1 keys.1.1 (Ne.symm hne) rest
        rw [rewriteLine_of_none hnone, ih keys.2]
        cases hlast : lastValue? key updates <;> simp [lastValue?, hlast, hne]

theorem takeWhile_return_eq {rest : List Char} (hrest : '\n' ∉ rest) :
    rest.takeWhile (· ≠ '\r') = rest.takeWhile inValue := by
  induction rest with
  | nil => rfl
  | cons c rest ih =>
      simp only [List.mem_cons, not_or] at hrest
      have hfeed : c ≠ '\n' := Ne.symm hrest.1
      by_cases hc : c = '\r'
      · simp [hc, inValue]
      · have hin : inValue c = true := by simp [inValue, hc, hfeed]
        rw [List.takeWhile_cons_of_pos (by simpa using hc), List.takeWhile_cons_of_pos hin, ih hrest.2]

theorem rewriteEach_of_none {line : List Char} (h : ∀ u ∈ updates, valueOn? u.1 line = none) :
    rewriteEach line updates = line := by
  induction updates with
  | nil => rfl
  | cons u updates ih =>
      simp only [List.forall_mem_cons] at h
      rw [rewriteEach, List.foldl_cons, ← rewriteEach, rewriteLine_of_none h.1, ih h.2]

/-- A line whose key already has the value of its last update stays. -/
theorem rewriteEach_of_settled (keys : ∀ u ∈ updates, IsKey u.1) {line : List Char}
    (hline : '\n' ∉ line)
    (settled : ∀ u ∈ updates, ∀ value, lastValue? u.1 updates = some value →
      ∀ w, valueOn? u.1 line = some w → w = writtenValue value) :
    rewriteEach line updates = line := by
  by_cases h : ∀ u ∈ updates, valueOn? u.1 line = none
  · exact rewriteEach_of_none h
  · simp only [not_forall] at h
    obtain ⟨u, hu, hvalue⟩ := h
    obtain ⟨rest, rfl⟩ := valueOn?_isSome_iff.1 (Option.isSome_iff_ne_none.2 hvalue)
    rw [rewriteEach_append keys (keys u hu)]
    cases hlast : lastValue? u.1 updates with
    | none => rfl
    | some value =>
        have hrest : '\n' ∉ rest := by
          intro hmem
          exact hline (by simp [hmem])
        have hdrop : Text.drop? (u.1 ++ ['=']) (u.1 ++ '=' :: rest) = some rest :=
          Text.drop?_eq_some_iff.2 (by simp)
        have htaken := settled u hu value hlast _ (by rw [valueOn?, hdrop, Option.map_some])
        rw [takeWhile_return_eq hrest] at htaken
        simp only [← htaken, List.takeWhile_append_dropWhile]

/-- A list of updates changes nothing when it is applied once more. -/
theorem setEach_setEach (keys : ∀ u ∈ updates, IsKey u.1) (content : List Char) :
    setEach (setEach content updates) updates = setEach content updates := by
  have last : ∀ u ∈ updates, ∃ value, lastValue? u.1 updates = some value := by
    intro u hu
    cases hlast : lastValue? u.1 updates with
    | some value => exact ⟨value, rfl⟩
    | none => exact absurd rfl (lastValue?_eq_none_iff.1 hlast u hu)
  have assigned : ∀ u ∈ updates, values u.1 (setEach content updates) ≠ [] := by
    intro u hu
    obtain ⟨value, hlast⟩ := last u hu
    exact (values_setEach keys (keys u hu) hlast content).1
  apply Text.pieces_inj
  rw [pieces_setEach keys assigned]
  conv => rhs; rw [← List.map_id (Text.pieces (setEach content updates))]
  refine List.map_congr_left fun line hline => ?_
  refine rewriteEach_of_settled keys (newline_notMem_of_mem_pieces hline) ?_
  intro u hu value hlast w hw
  refine (values_setEach keys (keys u hu) hlast content).2 w ?_
  exact List.mem_filterMap.2 ⟨line, hline, hw⟩

/-! ## Environment files -/

/-- The values that the lines of a file assign to a key, as they are written. -/
def assigned (content key : String) : List String :=
  (values key.toList content.toList).map String.ofList

theorem toList_setAll (content : String) (updates : List (String × String)) :
    (setAll content updates).toList =
      setEach content.toList (updates.map fun u => (u.1.toList, u.2.toList)) := by
  induction updates generalizing content with
  | nil => rfl
  | cons u updates ih =>
      rw [setAll, List.foldl_cons, ← setAll, ih, set, String.toList_ofList]
      rfl

theorem setAll_setAll (content : String) {updates : List (String × String)}
    (keys : ∀ u ∈ updates, IsKey u.1.toList) :
    setAll (setAll content updates) updates = setAll content updates := by
  have keys' : ∀ u ∈ updates.map fun u => (u.1.toList, u.2.toList), IsKey u.1 :=
    List.forall_mem_map.2 keys
  rw [← String.toList_inj, toList_setAll, toList_setAll, setEach_setEach keys']

end Resettle.EnvFile
