import Resettle.Scalar
import Resettle.Text.Blank

/-!
# The characters of literals

The literal of a string stands in quotes.  Every other literal is a numeral or a word, made of
letters, digits, signs and points.
-/

namespace Resettle

def isPlainChar (c : Char) : Bool :=
  c.isAlphanum || c == '-' || c == '.'

/-- A text made of letters, digits, signs and points. -/
def Plain (cs : List Char) : Prop :=
  ∀ c ∈ cs, isPlainChar c = true

instance (cs : List Char) : Decidable (Plain cs) :=
  List.decidableBAll _ cs

theorem isBlank_eq_false_of_isAlphanum {c : Char} (h : c.isAlphanum = true) :
    Text.isBlank c = false := by
  have hranges : c.isAlphanum = (decide ('A'.val ≤ c.val ∧ c.val ≤ 'Z'.val) ||
      ('a'.val ≤ c.val && c.val ≤ 'z'.val) || ('0'.val ≤ c.val && c.val ≤ '9'.val)) := rfl
  rw [Bool.eq_false_iff]
  intro hblank
  rw [hranges] at h
  simp only [Text.isBlank, Bool.or_eq_true, Bool.and_eq_true, decide_eq_true_eq, beq_iff_eq,
    UInt32.le_iff_toNat_le, ← UInt32.toNat_inj] at h hblank
  simp at h hblank
  omega

theorem isBlank_eq_false_of_isPlainChar {c : Char} (h : isPlainChar c = true) :
    Text.isBlank c = false := by
  simp only [isPlainChar, Bool.or_eq_true, beq_iff_eq] at h
  rcases h with (h | rfl) | rfl
  · exact isBlank_eq_false_of_isAlphanum h
  · decide
  · decide

namespace Plain

variable {c : Char} {cs ds : List Char}

theorem nil : Plain [] :=
  fun _ h => absurd h List.not_mem_nil

theorem cons (h : isPlainChar c = true) (hcs : Plain cs) : Plain (c :: cs) := by
  intro d hd
  rcases List.mem_cons.1 hd with rfl | hd
  · exact h
  · exact hcs d hd

theorem append (hcs : Plain cs) (hds : Plain ds) : Plain (cs ++ ds) := by
  intro c h
  rcases List.mem_append.1 h with h | h
  · exact hcs c h
  · exact hds c h

theorem toDigits (n : Nat) : Plain (Nat.toDigits 10 n) := by
  intro c hc
  have hdigit := Nat.isDigit_of_mem_toDigits (by decide) (by decide) hc
  have halphanum : c.isAlphanum = true := Bool.or_eq_true_iff.2 (.inr hdigit)
  rw [isPlainChar, halphanum]
  rfl

theorem zeros (n : Nat) : Plain (List.replicate n '0') := by
  intro c hc
  rw [List.eq_of_mem_replicate hc]
  decide

theorem toString (n : Int) : Plain (ToString.toString n).toList := by
  rw [Int.toString_eq_repr, Int.repr_eq_if]
  split
  · rw [Nat.toList_repr]
    exact toDigits _
  · rw [String.toList_append, Nat.toList_repr]
    exact append (by decide) (toDigits _)

theorem positional (d : Decimal) : Plain (Scalar.positional d) := by
  have hpoint : isPlainChar '.' = true := by decide
  unfold Scalar.positional
  dsimp only
  split
  · exact (toDigits _).append (zeros _)
  · split
    · exact .cons (by decide) (.cons hpoint ((zeros _).append (toDigits _)))
    · refine append (fun c hc => ?_) (.cons hpoint fun c hc => ?_)
      · exact toDigits _ c (List.mem_of_mem_take hc)
      · exact toDigits _ c (List.mem_of_mem_drop hc)

theorem floatText (x : Binary64) : Plain (Scalar.floatText x).toList := by
  unfold Scalar.floatText
  split
  · decide
  split
  · split <;> decide
  split
  · exact toString _
  · rw [String.toList_ofList]
    refine append ?_ (positional _)
    split
    · decide
    · exact nil

end Plain

namespace Scalar

theorem toList_literal_string (s : String) :
    (string s).literal.toList = '\'' :: (s.toList.flatMap quoteChar ++ ['\'']) := by
  rw [literal, singleQuoted, String.toList_ofList]

theorem plain_literal {v : Scalar} (h : ∀ s, v ≠ string s) : Plain v.literal.toList := by
  cases v with
  | bool b => cases b <;> decide
  | int n => exact .toString n
  | float x =>
      unfold literal
      dsimp only
      split
      · exact .floatText x
      · rw [String.toList_append]
        exact (Plain.floatText x).append (by decide)
  | string s => exact absurd rfl (h s)
  | null => decide

theorem positional_ne_nil (d : Decimal) : positional d ≠ [] := by
  unfold positional
  dsimp only
  split
  · simp [Nat.toDigits_ne_nil]
  · split <;> simp

theorem toString_ne_nil (n : Int) : (toString n).toList ≠ [] := by
  rw [Int.toString_eq_repr, Int.repr_eq_if]
  split
  · rw [Nat.toList_repr]
    exact Nat.toDigits_ne_nil
  · simp

theorem floatText_ne_nil (x : Binary64) : (floatText x).toList ≠ [] := by
  unfold floatText
  split
  · decide
  split
  · split <;> decide
  split
  · exact toString_ne_nil _
  · rw [String.toList_ofList]
    exact fun h => positional_ne_nil _ (List.append_eq_nil_iff.1 h).2

theorem literal_ne_nil (v : Scalar) : v.literal.toList ≠ [] := by
  cases v with
  | bool b => cases b <;> decide
  | int n => exact toString_ne_nil n
  | float x =>
      unfold literal
      dsimp only
      split
      · exact floatText_ne_nil x
      · simp
  | string s =>
      rw [toList_literal_string]
      exact List.cons_ne_nil _ _
  | null => decide

theorem exists_head_literal (v : Scalar) :
    ∃ d rest, v.literal.toList = d :: rest ∧ (d = '\'' ∨ isPlainChar d = true) := by
  by_cases hstring : ∃ s, v = string s
  · obtain ⟨s, rfl⟩ := hstring
    exact ⟨_, _, toList_literal_string s, .inl rfl⟩
  · obtain ⟨d, rest, hcut⟩ := List.exists_cons_of_ne_nil v.literal_ne_nil
    refine ⟨d, rest, hcut, .inr (plain_literal (fun s hs => hstring ⟨s, hs⟩) d ?_)⟩
    rw [hcut]
    exact List.mem_cons_self

end Scalar

end Resettle
