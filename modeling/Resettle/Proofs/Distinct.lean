import Mathlib.Data.List.Basic
import Mathlib.Data.List.Induction
import Resettle.Distinct

/-!
# What is shown first

Members of a list show values, and the values are listed in the order in which they are first
shown, each of them once.  Such a list is made by going through the members and adding each value
that is new.
-/

namespace Resettle

variable {α β : Type}

/-- A list of all values that the members of another list show, each once, in the order in which
they are first shown. -/
structure FirstShown (shows : β → α → Prop) (xs : List β) (ys : List α) : Prop where
  nodup : ys.Nodup
  mem_iff : ∀ y, y ∈ ys ↔ ∃ x ∈ xs, shows x y
  /-- Some front of the list shows the earlier of two values and does not show the later one. -/
  ordered : ys.Pairwise fun a b => ∃ front behind, xs = front ++ behind ∧ (∃ x ∈ front, shows x a) ∧
    ∀ x ∈ front, ¬ shows x b

namespace FirstShown

variable {shows shows' : β → α → Prop} {xs : List β} {ys : List α}

theorem empty : FirstShown shows [] [] where
  nodup := List.nodup_nil
  mem_iff := fun _ => by simp
  ordered := List.Pairwise.nil

theorem congr (h : ∀ x y, shows x y ↔ shows' x y) (hshown : FirstShown shows xs ys) :
    FirstShown shows' xs ys where
  nodup := hshown.nodup
  mem_iff := by simpa only [h] using hshown.mem_iff
  ordered := by simpa only [h] using hshown.ordered

/-- A front that tells two values apart does so whatever comes behind. -/
theorem ordered_append (h : FirstShown shows xs ys) (more : List β) :
    ys.Pairwise fun a b => ∃ front behind, xs ++ more = front ++ behind ∧
      (∃ x ∈ front, shows x a) ∧ ∀ x ∈ front, ¬ shows x b := by
  refine h.ordered.imp ?_
  rintro a b ⟨front, behind, rfl, hshown⟩
  exact ⟨front, behind ++ more, List.append_assoc _ _ _, hshown⟩

theorem skip (h : FirstShown shows xs ys) {x : β} (hx : ∀ y, ¬ shows x y) :
    FirstShown shows (xs ++ [x]) ys where
  nodup := h.nodup
  mem_iff := by
    intro y
    rw [h.mem_iff]
    simp [or_and_right, exists_or, hx]
  ordered := h.ordered_append [x]

theorem add [DecidableEq α] (h : FirstShown shows xs ys) {x : β} {value : α}
    (hx : ∀ y, shows x y ↔ y = value) : FirstShown shows (xs ++ [x]) (addNew ys value) where
  nodup := nodup_addNew h.nodup
  mem_iff := by
    intro y
    rw [mem_addNew, h.mem_iff]
    simp [or_and_right, exists_or, hx]
  ordered := by
    unfold addNew
    split
    · exact h.ordered_append [x]
    · next hnew =>
        refine List.pairwise_append.2 ⟨h.ordered_append [x], List.pairwise_singleton _ _, ?_⟩
        intro a ha b hb
        obtain rfl := List.mem_singleton.1 hb
        refine ⟨xs, [x], rfl, (h.mem_iff a).1 ha, ?_⟩
        exact fun x' hx' hshows => hnew ((h.mem_iff b).2 ⟨x', hx', hshows⟩)

end FirstShown

variable [DecidableEq α]

theorem addNew_of_mem {xs : List α} {x : α} (h : x ∈ xs) : addNew xs x = xs :=
  if_pos h

theorem foldl_addNew_of_subset {xs : List α} {more : List α} (h : more ⊆ xs) :
    more.foldl addNew xs = xs := by
  induction more with
  | nil => rfl
  | cons x more ih =>
      obtain ⟨hx, hmore⟩ := List.cons_subset.1 h
      rw [List.foldl_cons, addNew_of_mem hx, ih hmore]

theorem foldl_addNew_of_forall_eq {xs more : List α} {value : α} (h : ∀ x ∈ more, x = value)
    (hmem : value ∈ more) : more.foldl addNew xs = addNew xs value := by
  cases more with
  | nil => cases hmem
  | cons x more =>
      obtain ⟨rfl, hmore⟩ := List.forall_mem_cons.1 h
      rw [List.foldl_cons]
      apply foldl_addNew_of_subset
      intro y hy
      rw [hmore y hy]
      exact mem_addNew.2 (.inr rfl)

theorem distinct_append (xs ys : List α) : distinct (xs ++ ys) = ys.foldl addNew (distinct xs) :=
  List.foldl_append

/-- Going through members that show one value at most lists what is shown first. -/
theorem firstShown_distinct_flatMap {shown : β → List α}
    (h : ∀ x, ∀ a ∈ shown x, ∀ b ∈ shown x, a = b) (xs : List β) :
    FirstShown (fun x y => y ∈ shown x) xs (distinct (xs.flatMap shown)) := by
  induction xs using List.reverseRecOn with
  | nil => exact .empty
  | append_singleton xs x ih =>
      rw [List.flatMap_append, List.flatMap_singleton, distinct_append]
      cases hx : shown x with
      | nil => exact ih.skip (by simp [hx])
      | cons value more =>
          have hvalue : value ∈ shown x := hx ▸ List.mem_cons_self
          have hone : ∀ y, y ∈ shown x ↔ y = value :=
            fun y => ⟨fun hy => h x y hy value hvalue, fun heq => heq ▸ hvalue⟩
          rw [← hx, foldl_addNew_of_forall_eq (fun y hy => (hone y).1 hy) hvalue]
          exact ih.add hone

theorem firstShown_distinct_filterMap (shown? : β → Option α) (xs : List β) :
    FirstShown (fun x y => shown? x = some y) xs (distinct (xs.filterMap shown?)) := by
  rw [List.filterMap_eq_flatMap_toList]
  refine (firstShown_distinct_flatMap ?_ xs).congr fun x y => Option.mem_toList
  intro x a ha b hb
  exact Option.some.inj ((Option.mem_toList.1 ha).symm.trans (Option.mem_toList.1 hb))

theorem firstShown_distinct (xs : List α) : FirstShown (· = ·) xs (distinct xs) := by
  have h := firstShown_distinct_filterMap (some : α → Option α) xs
  rw [List.filterMap_some] at h
  exact h.congr fun x y => Option.some_inj

end Resettle
