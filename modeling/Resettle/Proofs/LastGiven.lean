import Resettle.Proofs.Dictionary
import Resettle.Proofs.Distinct

/-!
# The value given last

Values are given to keys one after the other.  The dictionary made of them has the keys in the
order in which they are first given a value, and holds the value that each key is given last.
-/

namespace Resettle

variable {κ α : Type}

/-- A value is given to a key, and no other value is given to it later. -/
def GivesLast (given : List (κ × α)) (key : κ) (value : α) : Prop :=
  ∃ front behind, given = front ++ (key, value) :: behind ∧ key ∉ behind.map Prod.fst

theorem givesLast_nil (key : κ) (value : α) : ¬ GivesLast [] key value := by
  rintro ⟨front, behind, hcut, -⟩
  cases front <;> cases hcut

/-- The entry at the end is the last one of its key, and all others stay what they are. -/
theorem givesLast_concat_iff {given : List (κ × α)} {e : κ × α} {key : κ} {value : α} :
    GivesLast (given ++ [e]) key value ↔
      e = (key, value) ∨ e.1 ≠ key ∧ GivesLast given key value := by
  constructor
  · rintro ⟨front, behind, hcut, hbehind⟩
    rcases List.eq_nil_or_concat behind with rfl | ⟨behind, last, rfl⟩
    · exact .inl (List.cons.inj (List.append_inj' hcut rfl).2).1
    · rw [List.concat_eq_append, ← List.cons_append, ← List.append_assoc] at hcut
      obtain ⟨rfl, hlast⟩ := List.append_inj' hcut rfl
      obtain rfl : e = last := (List.cons.inj hlast).1
      rw [List.concat_eq_append, List.map_append, List.mem_append, not_or] at hbehind
      refine .inr ⟨?_, front, behind, rfl, hbehind.1⟩
      exact fun heq => hbehind.2 (heq ▸ List.mem_singleton_self _)
  · rintro (rfl | ⟨hne, front, behind, rfl, hbehind⟩)
    · exact ⟨given, [], rfl, List.not_mem_nil⟩
    · refine ⟨front, behind ++ [e], by simp, ?_⟩
      rw [List.map_append, List.mem_append, not_or]
      exact ⟨hbehind, fun hmem => hne (List.mem_singleton.1 hmem).symm⟩

variable [DecidableEq κ]

/-- The keys that are given values, in the order in which they are first given one, each with the
value that it is given last. -/
structure LastGiven (given : List (κ × α)) (d : Dictionary κ α) : Prop where
  keys : FirstShown (fun e key => e.1 = key) given d.keys
  values : ∀ key value, d.get? key = some value ↔ GivesLast given key value

namespace Dictionary

theorem ofList_concat (given : List (κ × α)) (e : κ × α) :
    ofList (given ++ [e]) = (ofList given).insert e.1 e.2 :=
  insertMany_append _ _ _

theorem lastGiven_ofList (given : List (κ × α)) : LastGiven given (ofList given) := by
  induction given using List.reverseRecOn with
  | nil => exact ⟨.empty, fun key value => ⟨nofun, fun h => absurd h (givesLast_nil key value)⟩⟩
  | append_singleton given e ih =>
      rw [ofList_concat]
      constructor
      · rw [keys_insert]
        exact ih.keys.add fun key => eq_comm
      · intro key value
        rw [get?_insert_eq_some_iff, ih.values, givesLast_concat_iff, Prod.ext_iff]
        exact or_congr (and_congr eq_comm eq_comm) (and_congr ne_comm Iff.rfl)

/-- What is found under a key among inserted entries does not depend on what was there before. -/
theorem get?_insertMany_of_mem {given : List (κ × α)} {key : κ} (h : key ∈ given.map Prod.fst)
    (d : Dictionary κ α) : (d.insertMany given).get? key = (ofList given).get? key := by
  induction given using List.reverseRecOn with
  | nil => cases h
  | append_singleton given e ih =>
      rw [insertMany_append, ofList_concat]
      by_cases hlast : key = e.1
      · subst hlast
        exact (get?_insert_self _ _ _).trans (get?_insert_self _ _ _).symm
      · have hmem : key ∈ given.map Prod.fst := by simpa [hlast] using h
        rw [get?_insert_of_ne _ hlast]
        exact (get?_insert_of_ne _ hlast _).trans (ih hmem)

/-- Inserting lists of entries one after the other is inserting all entries. -/
theorem foldl_insertMany {β : Type} (entries : β → List (κ × α)) (xs : List β)
    (d : Dictionary κ α) :
    xs.foldl (fun d x => d.insertMany (entries x)) d = d.insertMany (xs.flatMap entries) := by
  induction xs generalizing d with
  | nil => rfl
  | cons x xs ih => rw [List.foldl_cons, ih, List.flatMap_cons, insertMany_append]

end Dictionary

end Resettle
