import Mathlib.Data.List.TakeWhile
import Resettle.EnvFile
import Resettle.Proofs.Text.Pieces

/-!
# What an environment file assigns

The view of an environment file is the list of its lines.  `values` reads off it which values the
lines assign to a key, and the lemmas say what `setChars` does to the lines and to that list: it
rewrites the lines of its key where there are any, and puts one more line between two others where
there are none.
-/

namespace Resettle.EnvFile

/-- The value that a line assigns to a key: what follows the key and an equals sign, up to a
carriage return. -/
def valueOn? (key line : List Char) : Option (List Char) :=
  (Text.drop? (key ++ ['=']) line).map fun rest => rest.takeWhile (· ≠ '\r')

/-- The values that the lines of a text assign to a key, in their order. -/
def values (key content : List Char) : List (List Char) :=
  (Text.pieces content).filterMap (valueOn? key)

/-- A line with `line` in place of its assignment to a key, if it has one. -/
def rewriteLine (key line old : List Char) : List Char :=
  match Text.drop? (key ++ ['=']) old with
  | some rest => line ++ rest.dropWhile inValue
  | none => old

/-- The characters that a key is made of cannot end it or its line. -/
def IsKey (key : List Char) : Prop :=
  '=' ∉ key ∧ '\n' ∉ key

instance (key : List Char) : Decidable (IsKey key) :=
  inferInstanceAs (Decidable (_ ∧ _))

variable {key other line old content : List Char}

/-! ## Written values -/

theorem notMem_quotedChar {c d : Char} (hd : d = '\n' ∨ d = '\r') : d ∉ quotedChar c := by
  unfold quotedChar
  split
  · rcases hd with rfl | rfl <;> decide
  split
  · rcases hd with rfl | rfl <;> decide
  split
  · rcases hd with rfl | rfl <;> decide
  · next hreturn hfeed => rcases hd with rfl | rfl <;> simp [Ne.symm hreturn, Ne.symm hfeed]

theorem notMem_writtenValue {d : Char} (hd : d = '\n' ∨ d = '\r') (value : List Char) :
    d ∉ writtenValue value := by
  unfold writtenValue
  split
  · have hq : d ≠ '"' := by rcases hd with rfl | rfl <;> decide
    simp only [List.mem_cons, List.mem_append, List.mem_flatMap, List.not_mem_nil, or_false, not_or,
      not_exists, not_and]
    exact ⟨hq, fun c _ => notMem_quotedChar hd, hq⟩
  · next h =>
      intro hmem
      refine h (List.any_eq_true.2 ⟨d, hmem, ?_⟩)
      rcases hd with rfl | rfl <;> decide

theorem newline_notMem_assignment (hkey : '\n' ∉ key) (value : List Char) :
    '\n' ∉ assignment key value := by
  simp [assignment, hkey, notMem_writtenValue (.inl rfl)]

/-! ## Lines and keys -/

theorem valueOn?_isSome_iff :
    (valueOn? key line).isSome ↔ ∃ rest, line = key ++ '=' :: rest := by
  simp [valueOn?, Option.isSome_iff_exists, Text.drop?_eq_some_iff]

@[simp] theorem valueOn?_nil (key : List Char) : valueOn? key [] = none := by
  cases key <;> rfl

theorem valueOn?_assignment (key value : List Char) :
    valueOn? key (assignment key value) = some (writtenValue value) := by
  have hdrop : Text.drop? (key ++ ['=']) (assignment key value) = some (writtenValue value) :=
    Text.drop?_eq_some_iff.2 (by simp [assignment])
  have hreturn := notMem_writtenValue (d := '\r') (.inr rfl) value
  rw [valueOn?, hdrop, Option.map_some, Option.some.injEq, List.takeWhile_eq_self_iff]
  intro c hc
  simpa using fun h : c = '\r' => hreturn (h ▸ hc)

theorem valueOn?_eq_none_of_ne (hkey : '=' ∉ key) (hother : '=' ∉ other) (hne : key ≠ other)
    (rest : List Char) : valueOn? other (key ++ '=' :: rest) = none := by
  rw [← Option.not_isSome_iff_eq_none, valueOn?_isSome_iff]
  rintro ⟨rest', h⟩
  exact hne (Text.front_unique hkey hother h).1

/-! ## Rewriting lines -/

theorem rewriteLine_of_none (h : valueOn? key old = none) : rewriteLine key line old = old := by
  have hdrop : Text.drop? (key ++ ['=']) old = none := by simpa [valueOn?] using h
  simp [rewriteLine, hdrop]

theorem rewriteLine_append (key line rest : List Char) :
    rewriteLine key line (key ++ '=' :: rest) = line ++ rest.dropWhile inValue := by
  have hdrop : Text.drop? (key ++ ['=']) (key ++ '=' :: rest) = some rest :=
    Text.drop?_eq_some_iff.2 (by simp)
  simp [rewriteLine, hdrop]

theorem newline_notMem_of_drop? {lead rest : List Char} (h : '\n' ∉ old)
    (hdrop : Text.drop? lead old = some rest) : '\n' ∉ rest.dropWhile inValue := by
  intro hmem
  have hmem := (List.dropWhile_sublist _).mem hmem
  exact h (by simp [Text.drop?_eq_some_iff.1 hdrop, hmem])

theorem newline_notMem_rewriteLine (hline : '\n' ∉ line) (hold : '\n' ∉ old) :
    '\n' ∉ rewriteLine key line old := by
  unfold rewriteLine
  split
  · next rest hdrop =>
      simp only [List.mem_append, not_or]
      exact ⟨hline, newline_notMem_of_drop? hold hdrop⟩
  · exact hold

theorem replaceLines_nil (key line : List Char) (lineStart : Bool) :
    replaceLines key line lineStart [] = [] := by
  rw [replaceLines]

theorem replaceLines_true_of_some {c : Char} {rest value : List Char}
    (h : Text.drop? (key ++ ['=']) (c :: rest) = some value) :
    replaceLines key line true (c :: rest) =
      line ++ replaceLines key line false (value.dropWhile inValue) := by
  rw [replaceLines]
  split <;> simp_all

theorem replaceLines_true_of_none {c : Char} {rest : List Char}
    (h : Text.drop? (key ++ ['=']) (c :: rest) = none) :
    replaceLines key line true (c :: rest) = c :: replaceLines key line (c == '\n') rest := by
  rw [replaceLines]
  split <;> simp_all

theorem replaceLines_false_cons (c : Char) (rest : List Char) :
    replaceLines key line false (c :: rest) = c :: replaceLines key line (c == '\n') rest := by
  rw [replaceLines]
  simp

/-- Behind the start of a line nothing is an assignment until the next line feed. -/
theorem replaceLines_false_append (h : '\n' ∉ old) (rest : List Char) :
    replaceLines key line false (old ++ rest) = old ++ replaceLines key line false rest := by
  induction old with
  | nil => rfl
  | cons c old ih =>
      simp only [List.mem_cons, not_or] at h
      have hc : (c == '\n') = false := by simpa using Ne.symm h.1
      rw [List.cons_append, replaceLines_false_cons, hc, ih h.2, List.cons_append]

theorem replaceLines_false_of_notMem (h : '\n' ∉ old) :
    replaceLines key line false old = old := by
  have hline : replaceLines key line false (old ++ []) = old ++ replaceLines key line false [] :=
    replaceLines_false_append h []
  simpa [replaceLines_nil] using hline

theorem replaceLines_true_append_cons (hkey : '\n' ∉ key) (h : '\n' ∉ old) (rest : List Char) :
    replaceLines key line true (old ++ '\n' :: rest) =
      rewriteLine key line old ++ '\n' :: replaceLines key line true rest := by
  have hlead : '\n' ∉ key ++ ['='] := by simp [hkey]
  have htaken := Text.drop?_append_cons hlead old rest
  cases hdrop : Text.drop? (key ++ ['=']) old with
  | some value =>
      obtain ⟨c, more, hc⟩ : ∃ c more, old ++ '\n' :: rest = c :: more := by
        cases old <;> simp
      rw [hdrop, Option.map_some, hc] at htaken
      rw [hc, replaceLines_true_of_some htaken, Text.dropWhile_append_cons (by decide),
        replaceLines_false_append (newline_notMem_of_drop? h hdrop), replaceLines_false_cons]
      simp [rewriteLine, hdrop]
  | none =>
      rw [hdrop, Option.map_none] at htaken
      cases old with
      | nil =>
          rw [List.nil_append] at htaken ⊢
          rw [replaceLines_true_of_none htaken]
          simp [rewriteLine, hdrop]
      | cons c old =>
          simp only [List.mem_cons, not_or] at h
          have hc : (c == '\n') = false := by simpa using Ne.symm h.1
          rw [List.cons_append] at htaken ⊢
          rw [replaceLines_true_of_none htaken, hc, replaceLines_false_append h.2,
            replaceLines_false_cons]
          simp [rewriteLine, hdrop]

theorem replaceLines_true_of_notMem (h : '\n' ∉ old) :
    replaceLines key line true old = rewriteLine key line old := by
  cases old with
  | nil => cases key <;> simp [replaceLines_nil, rewriteLine, Text.drop?]
  | cons c old =>
      cases hdrop : Text.drop? (key ++ ['=']) (c :: old) with
      | some value =>
          rw [replaceLines_true_of_some hdrop,
            replaceLines_false_of_notMem (newline_notMem_of_drop? h hdrop)]
          simp [rewriteLine, hdrop]
      | none =>
          simp only [List.mem_cons, not_or] at h
          have hc : (c == '\n') = false := by simpa using Ne.symm h.1
          rw [replaceLines_true_of_none hdrop, hc, replaceLines_false_of_notMem h.2]
          simp [rewriteLine, hdrop]

/-- Replacing the assignments of a text rewrites its lines one by one. -/
theorem pieces_replaceLines (hkey : '\n' ∉ key) (hline : '\n' ∉ line) (content : List Char) :
    Text.pieces (replaceLines key line true content) =
      (Text.pieces content).map (rewriteLine key line) := by
  induction content using Text.line_induction with
  | last old hold =>
      rw [replaceLines_true_of_notMem hold, Text.pieces_of_notMem hold,
        Text.pieces_of_notMem (newline_notMem_rewriteLine hline hold), List.map_singleton]
  | more old rest hold ih =>
      rw [replaceLines_true_append_cons hkey hold, Text.pieces_append_cons, Text.pieces_append_cons,
        ih, Text.pieces_of_notMem hold, Text.pieces_of_notMem (newline_notMem_rewriteLine hline hold),
        List.map_append, List.map_singleton]

theorem assigns_false_append (h : '\n' ∉ old) (rest : List Char) :
    assigns key false (old ++ rest) = assigns key false rest := by
  induction old with
  | nil => rfl
  | cons c old ih =>
      simp only [List.mem_cons, not_or] at h
      have hc : (c == '\n') = false := by simpa using Ne.symm h.1
      simp [assigns, hc, ih h.2]

/-- A key is found in a text exactly if one of the lines assigns to it. -/
theorem assigns_eq_any (hkey : '\n' ∉ key) (content : List Char) :
    assigns key true content = (Text.pieces content).any fun l => (valueOn? key l).isSome := by
  have hlead : '\n' ∉ key ++ ['='] := by simp [hkey]
  induction content using Text.line_induction with
  | last old hold =>
      rw [Text.pieces_of_notMem hold]
      cases old with
      | nil => simp [assigns]
      | cons c old =>
          simp only [List.mem_cons, not_or] at hold
          have hc : (c == '\n') = false := by simpa using Ne.symm hold.1
          have hrest : assigns key false (old ++ []) = assigns key false [] :=
            assigns_false_append hold.2 []
          simp only [List.append_nil] at hrest
          simp [assigns, hc, hrest, valueOn?]
  | more old rest hold ih =>
      rw [Text.pieces_append_cons, Text.pieces_of_notMem hold, List.any_append, ← ih]
      have htaken := congrArg Option.isSome (Text.drop?_append_cons hlead old rest)
      simp only [Option.isSome_map] at htaken
      cases old with
      | nil =>
          rw [List.nil_append] at htaken ⊢
          simp [assigns, htaken, valueOn?]
      | cons c old =>
          simp only [List.mem_cons, not_or] at hold
          have hc : (c == '\n') = false := by simpa using Ne.symm hold.1
          rw [List.cons_append] at htaken ⊢
          simp [assigns, htaken, valueOn?, hc, assigns_false_append hold.2]

end Resettle.EnvFile
