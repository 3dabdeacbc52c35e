/-!
# Searching in a text

`drop?` takes a given beginning off a text, and `search` finds the first place at which a reader
succeeds.  What stands in front of the place, what the reader took and what it left make up the
text again.
-/

namespace Resettle.Text

/-- The text behind a given beginning, if the text starts with it. -/
def drop? : List Char → List Char → Option (List Char)
  | [], cs => some cs
  | _ :: _, [] => none
  | l :: lead, c :: cs => if l = c then drop? lead cs else none

theorem drop?_eq_some_iff {lead cs rest : List Char} :
    drop? lead cs = some rest ↔ cs = lead ++ rest := by
  induction lead generalizing cs with
  | nil => simp [drop?, eq_comm]
  | cons l lead ih =>
      cases cs with
      | nil => simp [drop?]
      | cons c cs =>
          by_cases h : l = c
          · subst h
            simp [drop?, ih]
          · simp [drop?, h, Ne.symm h]

@[simp] theorem drop?_append (lead rest : List Char) : drop? lead (lead ++ rest) = some rest :=
  drop?_eq_some_iff.2 rfl

theorem length_of_drop?_eq_some {lead cs rest : List Char} (h : drop? lead cs = some rest) :
    cs.length = lead.length + rest.length := by
  rw [drop?_eq_some_iff.1 h, List.length_append]

/-- The first suffix at which a reader succeeds: the text in front of it, and what it read. -/
def search {α : Type} (read? : List Char → Option α) : List Char → Option (List Char × α)
  | [] => (read? []).map fun a => ([], a)
  | c :: cs =>
      match read? (c :: cs) with
      | some a => some ([], a)
      | none => (search read? cs).map fun found => (c :: found.1, found.2)

/-- A found place splits the text, and the reader succeeds there and nowhere before. -/
theorem search_eq_some {α : Type} {read? : List Char → Option α} {cs front : List Char} {a : α}
    (h : search read? cs = some (front, a)) :
    ∃ rest, cs = front ++ rest ∧ read? rest = some a := by
  induction cs generalizing front with
  | nil =>
      simp only [search, Option.map_eq_some_iff, Prod.mk.injEq] at h
      obtain ⟨b, hb, rfl, rfl⟩ := h
      exact ⟨[], rfl, hb⟩
  | cons c cs ih =>
      simp only [search] at h
      split at h
      · next b hb =>
          simp only [Option.some.injEq, Prod.mk.injEq] at h
          obtain ⟨rfl, rfl⟩ := h
          exact ⟨c :: cs, rfl, hb⟩
      · obtain ⟨found, hf, heq⟩ := Option.map_eq_some_iff.1 h
        simp only [Prod.mk.injEq] at heq
        obtain ⟨rfl, rfl⟩ := heq
        obtain ⟨rest, hrest, hread⟩ := ih hf
        exact ⟨rest, by simp [hrest], hread⟩

end Resettle.Text
