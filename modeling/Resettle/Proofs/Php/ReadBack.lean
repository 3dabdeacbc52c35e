import Resettle.Php.Grammar.Expression
import Resettle.Php.Lexer
import Resettle.Proofs.Php.Integers
import Resettle.Proofs.Scalar.Literal

/-!
# Literals are read back

The literal of a scalar is read as the scalar that it was written for.  A string is one token in
single quotes whatever follows it, true, false and null are constants, and an integer is its
digits behind a minus sign or none.  The least integer alone comes back as the float of the same
value, since its digits without the sign are out of range.
-/

namespace Resettle.Php

variable {c : Char} {body : List Char}

/-! ## Strings -/

/-- Text in which a backslash protects each quote and each backslash. -/
inductive Protected : List Char → Prop
  | nil : Protected []
  | plain {c : Char} {cs : List Char} (hescape : c ≠ '\\') (hquote : c ≠ '\'')
      (h : Protected cs) : Protected (c :: cs)
  | escaped {c : Char} {cs : List Char} (h : Protected cs) : Protected ('\\' :: c :: cs)

theorem protected_flatMap_quoteChar (cs : List Char) : Protected (cs.flatMap Scalar.quoteChar) := by
  induction cs with
  | nil => exact .nil
  | cons c cs ih =>
      rw [List.flatMap_cons, Scalar.quoteChar]
      split
      · exact .escaped ih
      · next hc =>
          rw [not_or] at hc
          exact .plain hc.1 hc.2 ih

theorem Protected.afterSingleQuoted? (h : Protected body) (rest : List Char) :
    Lexer.afterSingleQuoted? (body ++ '\'' :: rest) = some rest := by
  induction h with
  | nil => rfl
  | @plain c cs hescape hquote h ih =>
      rw [List.cons_append, Lexer.afterSingleQuoted?]
      · exact ih
      · simp [hescape]
      · simp [hquote]
  | escaped h ih => exact ih

theorem unescapeSingle_cons (hc : c ≠ '\\') (cs : List Char) :
    Literal.unescapeSingle (c :: cs) = c :: Literal.unescapeSingle cs := by
  rw [Literal.unescapeSingle] <;> simp [hc]

theorem unescapeSingle_flatMap_quoteChar (cs : List Char) :
    Literal.unescapeSingle (cs.flatMap Scalar.quoteChar) = cs := by
  induction cs with
  | nil => rfl
  | cons c cs ih =>
      rw [List.flatMap_cons, Scalar.quoteChar]
      split
      · next hc => rcases hc with rfl | rfl <;> exact congrArg _ ih
      · next hc =>
          rw [not_or] at hc
          rw [List.singleton_append, unescapeSingle_cons hc.1, ih]

theorem singleQuoted?_literal (s : String) :
    Literal.singleQuoted? (Scalar.string s).literal.toList = some s.toList := by
  have hunquote (body : List Char) :
      Literal.unquote? '\'' ('\'' :: (body ++ ['\''])) = some body := by
    simp [Literal.unquote?]
  rw [Scalar.toList_literal_string, Literal.singleQuoted?, hunquote, Option.map_some,
    unescapeSingle_flatMap_quoteChar]

/-- The scanner takes the literal of a string for one token, the string itself. -/
theorem codeStep_literal (frames : List Lexer.Frame) (gap operand : Bool) (s : String)
    (rest : List Char) :
    Lexer.codeStep frames gap operand ((Scalar.string s).literal.toList ++ rest) =
      Lexer.codeToken frames (.text (.literal (.string s))) rest := by
  have hraw := singleQuoted?_literal s
  have hend := (protected_flatMap_quoteChar s.toList).afterSingleQuoted? rest
  rw [Scalar.toList_literal_string] at hraw ⊢
  rw [List.append_cons] at hend
  generalize s.toList.flatMap Scalar.quoteChar ++ ['\''] = body at hraw hend ⊢
  have hstart : Lexer.codeStep frames gap operand ('\'' :: body ++ rest) =
      Lexer.codeStep.singleQuoted frames ['\''] (body ++ rest) := rfl
  have htaken : ['\''] ++ (body ++ rest).take ((body ++ rest).length - rest.length) =
      '\'' :: body := by
    rw [List.length_append, Nat.add_sub_cancel, List.take_left]
    rfl
  rw [hstart, Lexer.codeStep.singleQuoted, hend]
  simp only [htaken, hraw, String.ofList_toList]

/-! ## Constants -/

theorem constant?_literal_bool (b : Bool) :
    Literal.constant? (Scalar.bool b).literal.toList = some (.bool b) := by
  cases b <;> decide

theorem constant?_literal_null : Literal.constant? Scalar.null.literal.toList = some .null := by
  decide

/-! ## Integers -/

/-- The node of an integer literal: that of its digits, a minus sign in front being applied to
it. -/
def integerNode (cs : List Char) : Node :=
  match cs with
  | '-' :: digits => Grammar.signed Literal.negate? (Lexer.numberNode (Literal.integer? digits))
  | _ => Lexer.numberNode (Literal.integer? cs)

theorem toList_literal_int (n : Int) : (Scalar.int n).literal.toList =
    if 0 ≤ n then Nat.toDigits 10 n.toNat else '-' :: Nat.toDigits 10 (-n).toNat := by
  rw [Scalar.literal, Int.toString_eq_repr, Int.repr_eq_if]
  split
  · rw [Nat.toList_repr]
  · rw [String.toList_append, Nat.toList_repr]
    rfl

theorem integer?_toDigits {n : Nat} (hn : n < 2 ^ 63) :
    Literal.integer? (Nat.toDigits 10 n) = some (.int n) := by
  obtain ⟨base, ds, hbase, hcut, hdigits, hvalue⟩ :=
    (Literal.integerToken_toDigits n).exists_digits
  rw [Literal.integer?_of_areDigits hbase hcut hdigits, hvalue, if_pos hn]

theorem integerNode_toDigits (n : Nat) :
    integerNode (Nat.toDigits 10 n) = Lexer.numberNode (Literal.integer? (Nat.toDigits 10 n)) := by
  have hdigits : Literal.AreDigits 10 (Nat.toDigits 10 n) :=
    Literal.areDigits_toDigits (by decide) (by decide) n
  obtain ⟨d, ds, hcut⟩ := List.exists_cons_of_ne_nil hdigits.ne_nil
  have hd : d ≠ '-' := by
    rintro rfl
    exact absurd (hdigits.lt '-' (hcut ▸ List.mem_cons_self)) (by decide)
  simp [hcut, integerNode, hd]

theorem integerNode_literal {n : Int} (hlow : -2 ^ 63 < n) (hhigh : n < 2 ^ 63) :
    integerNode (Scalar.int n).literal.toList = .literal (.int n) := by
  rw [toList_literal_int]
  split
  · next hn =>
      obtain ⟨k, rfl⟩ := Int.eq_ofNat_of_zero_le hn
      have hk : k < 2 ^ 63 := by omega
      rw [Int.toNat_natCast, integerNode_toDigits, integer?_toDigits hk]
      rfl
  · next hn =>
      obtain ⟨k, hk⟩ := Int.eq_ofNat_of_zero_le (show 0 ≤ -n by omega)
      obtain rfl : n = -(k : Int) := by omega
      have hk : k < 2 ^ 63 := by omega
      have hrange : Literal.inRange (-(k : Int)) = true := by
        have hlimit : Literal.integerLimit = 2 ^ 63 := rfl
        simp only [Literal.inRange, hlimit, Bool.and_eq_true, decide_eq_true_eq]
        omega
      rw [Int.neg_neg, Int.toNat_natCast, integerNode, integer?_toDigits hk]
      simp only [Lexer.numberNode, Grammar.signed, Literal.negate?, if_pos hrange]

/-- The digits of the least integer are those of a float, whose sign is reversed. -/
theorem integerNode_literal_least : integerNode (Scalar.int (-2 ^ 63)).literal.toList =
    .literal (.float (Binary64.ofNat (2 ^ 63)).neg) := by
  have hdigits : Literal.integer? (Nat.toDigits 10 (2 ^ 63)) =
      some (.float (Binary64.ofNat (2 ^ 63))) := by
    decide +kernel
  have hminus : (Scalar.int (-2 ^ 63)).literal.toList = '-' :: Nat.toDigits 10 (2 ^ 63) :=
    toList_literal_int (-2 ^ 63)
  rw [hminus, integerNode, hdigits]
  rfl

/-- The literal of a scalar that is no float is read as the scalar that it was written for: that of a
string is one token in single quotes with no unprotected quote inside, whatever follows it; those
of true, false and null are constants; and that of an integer is its digits, a minus sign in front
being applied to them.  Only the least integer comes back as a float, of the same value. -/
theorem readBack_literal :
    (∀ s : String,
      (∃ body, Protected body ∧ (Scalar.string s).literal.toList = '\'' :: (body ++ ['\''])) ∧
      (∀ frames gap operand rest,
        Lexer.codeStep frames gap operand ((Scalar.string s).literal.toList ++ rest) =
          Lexer.codeToken frames (.text (.literal (.string s))) rest) ∧
      Literal.singleQuoted? (Scalar.string s).literal.toList = some s.toList) ∧
    (∀ b, Literal.constant? (Scalar.bool b).literal.toList = some (.bool b)) ∧
    Literal.constant? Scalar.null.literal.toList = some .null ∧
    (∀ n : Int, -2 ^ 63 < n → n < 2 ^ 63 →
      integerNode (Scalar.int n).literal.toList = .literal (.int n)) ∧
    ∃ x : Binary64, integerNode (Scalar.int (-2 ^ 63)).literal.toList = .literal (.float x) ∧
      x.isFinite = true ∧ x.isNegative = true ∧ x.magnitude = 2 ^ 63 * Binary64.unit := by
  refine ⟨fun s => ⟨?_, ?_, singleQuoted?_literal s⟩, constant?_literal_bool,
    constant?_literal_null, fun n hlow hhigh => integerNode_literal hlow hhigh, ?_⟩
  · exact ⟨_, protected_flatMap_quoteChar s.toList, Scalar.toList_literal_string s⟩
  · exact fun frames gap operand rest => codeStep_literal frames gap operand s rest
  · exact ⟨_, integerNode_literal_least, by decide +kernel, by decide +kernel, by decide +kernel⟩

/-- The integer next to the least one. -/
theorem readBack_literal_nextToLeast :
    (-2 ^ 63 : Int) < -9223372036854775807 ∧ (-9223372036854775807 : Int) < 2 ^ 63 ∧
      integerNode (Scalar.int (-9223372036854775807)).literal.toList =
        .literal (.int (-9223372036854775807)) := by
  have hlow : (-2 ^ 63 : Int) < -9223372036854775807 := by decide
  have hhigh : (-9223372036854775807 : Int) < 2 ^ 63 := by decide
  exact ⟨hlow, hhigh, readBack_literal.2.2.2.1 _ hlow hhigh⟩

end Resettle.Php
