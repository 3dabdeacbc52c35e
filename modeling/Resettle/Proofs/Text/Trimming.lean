import Mathlib.Data.List.DropRight
import Resettle.Proofs.Text.Pieces
import Resettle.Text.Blank

/-!
# Trimming

What is taken off the ends of a text, and what stays.  Characters of the class that is trimmed make
no difference where they stand at an end, and a text that has none there is left alone.
-/

namespace Resettle.Text

variable {p : Char → Bool} {c : Char} {cs ds : List Char}

/-- What is left behind the first members that satisfy `p` starts with one that does not. -/
theorem exists_dropWhile_eq_cons {α : Type} {p : α → Bool} {xs : List α}
    (h : ∃ x ∈ xs, p x = false) :
    ∃ first more, xs.dropWhile p = first :: more ∧ p first = false := by
  have hne : xs.dropWhile p ≠ [] := by
    intro hnil
    obtain ⟨x, hx, hp⟩ := h
    rw [List.dropWhile_eq_nil_iff.1 hnil x hx] at hp
    cases hp
  obtain ⟨first, more, hmore⟩ := List.exists_cons_of_ne_nil hne
  have hstop := List.head?_dropWhile_not p xs
  rw [hmore] at hstop
  exact ⟨first, more, hmore, by simpa using hstop⟩

theorem exists_dropWhileEnd (p : Char → Bool) (cs : List Char) :
    ∃ dropped, cs = dropWhileEnd p cs ++ dropped ∧ (∀ c ∈ dropped, p c = true) ∧
      ∀ c, (dropWhileEnd p cs).getLast? = some c → p c = false := by
  refine ⟨cs.rtakeWhile p, List.rdropWhile_append_rtakeWhile.symm,
    fun c hc => List.mem_rtakeWhile_imp hc, fun c hc => ?_⟩
  rw [dropWhileEnd, List.getLast?_reverse] at hc
  have hstop := List.head?_dropWhile_not p cs.reverse
  simpa [hc] using hstop

theorem dropWhileEnd_append (h : ∀ c ∈ ds, p c = true) :
    dropWhileEnd p (cs ++ ds) = dropWhileEnd p cs := by
  unfold dropWhileEnd
  rw [List.reverse_append, List.dropWhile_append_of_pos]
  exact fun c hc => h c (List.mem_reverse.1 hc)

theorem dropWhileEnd_cons_of_neg (h : p c = false) (cs : List Char) :
    dropWhileEnd p (c :: cs) = c :: dropWhileEnd p cs := by
  rw [dropWhileEnd, List.reverse_cons, dropWhile_append_cons h, List.reverse_append]
  rfl

theorem dropWhileEnd_dropWhile_append (cs : List Char) (h : ∀ c ∈ ds, p c = true) :
    dropWhileEnd p ((cs ++ ds).dropWhile p) = dropWhileEnd p (cs.dropWhile p) := by
  rw [List.dropWhile_append]
  split
  · next hempty => rw [List.isEmpty_iff.1 hempty, List.dropWhile_eq_nil_iff.2 h]
  · exact dropWhileEnd_append h

theorem trimmed_eq_self {d e : Char} (hd : cs.head? = some d) (he : cs.getLast? = some e)
    (hd' : p d = false) (he' : p e = false) : dropWhileEnd p (cs.dropWhile p) = cs := by
  have hfront : cs.dropWhile p = cs := by
    obtain ⟨rest, rfl⟩ := List.head?_eq_some_iff.1 hd
    exact List.dropWhile_cons_of_neg (by simp [hd'])
  obtain ⟨init, hcut⟩ := List.getLast?_eq_some_iff.1 he
  rw [hfront, dropWhileEnd, hcut, List.reverse_append, List.reverse_singleton,
    List.singleton_append, List.dropWhile_cons_of_neg (by simp [he']), List.reverse_cons,
    List.reverse_reverse]

theorem trim_around {lead trail : List Char} (hlead : ∀ c ∈ lead, isBlank c = true)
    (htrail : ∀ c ∈ trail, isBlank c = true) (cs : List Char) :
    trim (lead ++ (cs ++ trail)) = trim cs := by
  rw [trim, trimStart, trimEnd, List.dropWhile_append_of_pos hlead,
    dropWhileEnd_dropWhile_append cs htrail]
  rfl

end Resettle.Text
