import Mathlib.Data.List.Basic
import Resettle.Text.Search

/-!
# Places in a text

The number of places in a text at which a reader succeeds.  `search` finds the first of them, and
counting is additive, so that an edit can be followed place by place.
-/

namespace Resettle.Text

variable {α : Type} (read? : List Char → Option α)

/-- The number of places in a text at which a reader succeeds when `behind` follows the text. -/
def hitsIn : List Char → List Char → Nat
  | [], _ => 0
  | c :: cs, behind => (if (read? (c :: (cs ++ behind))).isSome then 1 else 0) + hitsIn cs behind

theorem hitsIn_append (xs ys behind : List Char) :
    hitsIn read? (xs ++ ys) behind = hitsIn read? xs (ys ++ behind) + hitsIn read? ys behind := by
  induction xs with
  | nil => simp [hitsIn]
  | cons x xs ih => simp only [List.cons_append, hitsIn, ih, List.append_assoc, Nat.add_assoc]

/-- Texts that no place can tell apart by what follows have the same number of places. -/
theorem hitsIn_congr {xs behind behind' : List Char}
    (h : ∀ c ys, c :: ys <:+ xs →
      (read? (c :: (ys ++ behind))).isSome = (read? (c :: (ys ++ behind'))).isSome) :
    hitsIn read? xs behind = hitsIn read? xs behind' := by
  induction xs with
  | nil => rfl
  | cons x xs ih =>
      rw [hitsIn, hitsIn, h x xs (List.suffix_refl _), ih]
      intro c ys hys
      exact h c ys (hys.trans (List.suffix_cons x xs))

theorem hitsIn_of_isSome {β : Type} {read? : List Char → Option α} {read'? : List Char → Option β}
    (h : ∀ cs, (read? cs).isSome = (read'? cs).isSome) (xs behind : List Char) :
    hitsIn read? xs behind = hitsIn read'? xs behind := by
  induction xs with
  | nil => rfl
  | cons x xs ih => rw [hitsIn, hitsIn, h, ih]

theorem hitsIn_eq_zero_iff {xs behind : List Char} :
    hitsIn read? xs behind = 0 ↔ ∀ c ys, c :: ys <:+ xs → read? (c :: (ys ++ behind)) = none := by
  induction xs with
  | nil => simp [hitsIn]
  | cons x xs ih =>
      rw [hitsIn, Nat.add_eq_zero_iff, ih]
      constructor
      · rintro ⟨hx, hxs⟩ c ys hys
        rcases List.suffix_cons_iff.1 hys with heq | hys
        · obtain ⟨rfl, rfl⟩ := List.cons.inj heq
          simpa using hx
        · exact hxs c ys hys
      · intro h
        refine ⟨?_, fun c ys hys => h c ys (hys.trans (List.suffix_cons x xs))⟩
        rw [h x xs (List.suffix_refl _)]
        rfl

theorem hitsIn_eq_zero_iff_isSome {xs behind : List Char} :
    hitsIn read? xs behind = 0 ↔
      ∀ c ys, c :: ys <:+ xs → (read? (c :: (ys ++ behind))).isSome = false := by
  rw [hitsIn_eq_zero_iff]
  simp only [Option.isSome_eq_false_iff, Option.isNone_iff_eq_none]

theorem search_eq_some_iff {cs front : List Char} {a : α} :
    search read? cs = some (front, a) ↔
      ∃ rest, cs = front ++ rest ∧ read? rest = some a ∧ hitsIn read? front rest = 0 := by
  induction cs generalizing front with
  | nil =>
      simp only [search, Option.map_eq_some_iff, Prod.mk.injEq]
      constructor
      · rintro ⟨b, hb, rfl, rfl⟩
        exact ⟨[], rfl, hb, rfl⟩
      · rintro ⟨rest, hrest, hread, _⟩
        obtain ⟨rfl, rfl⟩ := List.append_eq_nil_iff.1 hrest.symm
        exact ⟨a, hread, rfl, rfl⟩
  | cons c cs ih =>
      rw [search]
      cases hc : read? (c :: cs) with
      | some b =>
          simp only [Option.some.injEq, Prod.mk.injEq]
          constructor
          · rintro ⟨rfl, rfl⟩
            exact ⟨c :: cs, rfl, hc, rfl⟩
          · rintro ⟨rest, hrest, hread, hfront⟩
            cases front with
            | nil =>
                rw [List.nil_append] at hrest
                subst hrest
                exact ⟨rfl, Option.some.inj (hc.symm.trans hread)⟩
            | cons f front =>
                obtain ⟨rfl, rfl⟩ := List.cons.inj hrest
                rw [hitsIn, Nat.add_eq_zero_iff] at hfront
                change read? (c :: (front ++ rest)) = some b at hc
                rw [hc] at hfront
                cases hfront.1
      | none =>
          simp only [Option.map_eq_some_iff, Prod.exists, Prod.mk.injEq]
          constructor
          · rintro ⟨front', b, hfound, rfl, rfl⟩
            obtain ⟨rest, rfl, hread, hfront⟩ := ih.1 hfound
            exact ⟨rest, rfl, hread, by simp [hitsIn, hc, hfront]⟩
          · rintro ⟨rest, hrest, hread, hfront⟩
            cases front with
            | nil =>
                rw [List.nil_append] at hrest
                rw [← hrest, hc] at hread
                cases hread
            | cons f front =>
                obtain ⟨rfl, rfl⟩ := List.cons.inj hrest
                rw [hitsIn, Nat.add_eq_zero_iff] at hfront
                exact ⟨front, a, ih.2 ⟨rest, rfl, hread, hfront.2⟩, rfl, rfl⟩

theorem search_eq_none_iff {cs : List Char} :
    search read? cs = none ↔ hitsIn read? cs [] = 0 ∧ read? [] = none := by
  induction cs with
  | nil => simp [search, hitsIn]
  | cons c cs ih =>
      rw [search]
      cases hc : read? (c :: cs) with
      | some b => simp [hitsIn, hc]
      | none => simp [hitsIn, hc, ih]

end Resettle.Text
