/-!
# Distinct members in order

A list without repetitions, each member standing where it first stood.
-/

namespace Resettle

variable {α : Type} [DecidableEq α]

/-- A list with a member at its end unless it has it already. -/
def addNew (xs : List α) (x : α) : List α :=
  if x ∈ xs then xs else xs ++ [x]

/-- The members of a list, each once, in order of first occurrence. -/
def distinct (xs : List α) : List α :=
  xs.foldl addNew []

theorem mem_addNew {xs : List α} {x y : α} : y ∈ addNew xs x ↔ y ∈ xs ∨ y = x := by
  unfold addNew
  split
  · next h => exact ⟨Or.inl, fun h' => h'.elim id (fun e => e ▸ h)⟩
  · simp

theorem nodup_addNew {xs : List α} {x : α} (h : xs.Nodup) : (addNew xs x).Nodup := by
  unfold addNew
  split
  · exact h
  · next hx =>
      rw [List.nodup_append]
      refine ⟨h, by simp, ?_⟩
      intro a ha b hb
      simp only [List.mem_singleton] at hb
      subst hb
      exact fun e => hx (e ▸ ha)

end Resettle
