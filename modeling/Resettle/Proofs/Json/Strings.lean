import Resettle.Json.Token

/-!
# Strings in quotes

Every text can be read back from its spelling in quotes: an escaped character is read as one
piece, and the pieces of a text are put together to it again.
-/

namespace Resettle.Json.Token

def piece (c : Char) : Piece :=
  if c.toNat < 32 ∧ c ∉ ['\x08', '\x0c', '\n', '\r', '\t'] then .unit c.toNat else .char c

theorem hexUnit?_hexDigit {n : Nat} (h : n < 32) :
    hexUnit? '0' '0' (hexDigit (n / 16)) (hexDigit (n % 16)) = some n := by
  have hall : ∀ n < 32, hexUnit? '0' '0' (hexDigit (n / 16)) (hexDigit (n % 16)) = some n := by
    decide +kernel
  exact hall n h

theorem readPieces?_unit {a b c d : Char} {n : Nat} (h : hexUnit? a b c d = some n)
    (rest : List Char) :
    readPieces? ('\\' :: 'u' :: a :: b :: c :: d :: rest) =
      (readPieces? rest).map fun r => (.unit n :: r.1, r.2) := by
  rw [readPieces?, h]
  cases readPieces? rest <;> rfl

theorem readPieces?_escape {e c : Char} (he : e ≠ 'u') (h : escape? e = some c)
    (rest : List Char) :
    readPieces? ('\\' :: e :: rest) =
      (readPieces? rest).map fun r => (.char c :: r.1, r.2) := by
  rw [readPieces?]
  · rw [h]
    cases readPieces? rest <;> rfl
  · intro a b c' d rest' hu
    exact absurd hu he

theorem readPieces?_char {c : Char} (hquote : c ≠ '"') (hslash : c ≠ '\\') (hc : 32 ≤ c.toNat)
    (rest : List Char) :
    readPieces? (c :: rest) = (readPieces? rest).map fun r => (.char c :: r.1, r.2) := by
  rw [readPieces?.eq_def]
  split
  · simp_all
  · simp_all
  · simp_all
  · simp_all
  · next heq =>
      obtain ⟨rfl, rfl⟩ := List.cons.inj heq
      have hplain : ¬(c.toNat < 32 ∨ c = '\\') := by
        rintro (h | h)
        · omega
        · exact hslash h
      rw [if_neg hplain]
      cases readPieces? rest <;> rfl

theorem readPieces?_escaped (c : Char) (rest : List Char) :
    readPieces? (escaped c ++ rest) =
      (readPieces? rest).map fun r => (piece c :: r.1, r.2) := by
  unfold escaped
  split
  all_goals try exact readPieces?_escape (by decide) rfl rest
  next hquote hslash h8 h12 h10 h13 h9 =>
    split
    · next hc =>
        have hpiece : piece c = .unit c.toNat := by
          refine if_pos ⟨hc, ?_⟩
          simp only [List.mem_cons, List.not_mem_nil, or_false, not_or]
          exact ⟨h8, h12, h10, h13, h9⟩
        rw [hpiece]
        exact readPieces?_unit (hexUnit?_hexDigit hc) rest
    · next hc =>
        have hpiece : piece c = .char c := if_neg fun h => hc h.1
        rw [hpiece]
        exact readPieces?_char hquote hslash (by omega) rest

theorem readPieces?_quoted (cs rest : List Char) :
    readPieces? (cs.flatMap escaped ++ '"' :: rest) = some (cs.map piece, rest) := by
  induction cs with
  | nil => rfl
  | cons c cs ih =>
      rw [List.flatMap_cons, List.append_assoc, readPieces?_escaped, ih]
      rfl

theorem assemble?_cons_unit {n : Nat} (h : n < 32) (pieces : List Piece) :
    assemble? (.unit n :: pieces) = (assemble? pieces).map (Char.ofNat n :: ·) := by
  have hhigh : isHigh n = false := by
    simp [isHigh]
    omega
  have hlow : isLow n = false := by
    simp [isLow]
    omega
  rw [assemble?.eq_def]
  split <;> simp_all

theorem assemble?_piece (cs : List Char) : assemble? (cs.map piece) = some cs := by
  induction cs with
  | nil => rfl
  | cons c cs ih =>
      rw [List.map_cons, piece]
      split
      · next hc =>
          rw [assemble?_cons_unit hc.1, ih, Char.ofNat_toNat]
          rfl
      · rw [assemble?, ih]
        rfl

end Resettle.Json.Token
