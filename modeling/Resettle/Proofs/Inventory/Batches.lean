import Resettle.Batch
import Resettle.Distinct
import Resettle.Proofs.Dictionary
import Resettle.Proofs.PathMap

/-!
# Batches of files

What the maps of a batch hold, file by file, when no two files lie at one place: the files that
were collected from and the files that were not, each list in the order of the files.
-/

namespace Resettle

variable {α : Type}

namespace Batch

def value? (r : Path × Except Error α) : Option (Path × α) :=
  match r.2 with
  | .ok a => some (r.1, a)
  | .error _ => none

def message? (r : Path × Except Error α) : Option (Path × String) :=
  match r.2 with
  | .ok _ => none
  | .error e => some (r.1, e.message)

theorem fst_of_value? {r : Path × Except Error α} {e : Path × α} (h : value? r = some e) :
    e.1 = r.1 := by
  unfold value? at h
  split at h
  · cases h
    rfl
  · cases h

theorem fst_of_message? {r : Path × Except Error α} {e : Path × String}
    (h : message? r = some e) : e.1 = r.1 := by
  unfold message? at h
  split at h
  · cases h
  · cases h
    rfl

/-- What is kept under the paths of a list has no more places than the list. -/
theorem sublist_places {β γ : Type} {path : β → Path} {read? : β → Option (Path × γ)}
    (h : ∀ x e, read? x = some e → e.1 = path x) (xs : List β) :
    ((xs.filterMap read?).map fun e => e.1.place).Sublist (xs.map fun x => (path x).place) := by
  induction xs with
  | nil => exact List.nil_sublist _
  | cons x xs ih =>
      rw [List.filterMap_cons]
      cases hx : read? x with
      | none => exact ih.cons _
      | some e =>
          rw [List.map_cons, List.map_cons, h x e hx]
          exact ih.cons_cons _

/-- Results are parted into values and messages, each in their order. -/
theorem ofResults_eq (results : List (Path × Except Error α)) :
    ofResults results =
      ⟨.ofList (results.filterMap value?), .ofList (results.filterMap message?)⟩ := by
  have hmany : ∀ b : Batch α, results.foldl (fun b r => b.add r.1 r.2) b =
      ⟨b.success.insertMany (results.filterMap value?),
        b.errors.insertMany (results.filterMap message?)⟩ := by
    induction results with
    | nil => exact fun _ => rfl
    | cons r results ih =>
        intro b
        obtain ⟨p, result⟩ := r
        rw [List.foldl_cons, ih]
        cases result <;> rfl
  exact hmany empty

/-- Of files that lie apart, all values and all messages are kept. -/
theorem ofResults_spec {results : List (Path × Except Error α)}
    (h : (results.map fun r => r.1.place).Nodup) :
    (ofResults results).success.entries = results.filterMap value? ∧
      (ofResults results).errors.entries = results.filterMap message? := by
  rw [ofResults_eq]
  refine ⟨PathMap.insertMany_of_nodup ?_, PathMap.insertMany_of_nodup ?_⟩
  · exact (sublist_places (fun _ _ => fst_of_value?) results).nodup h
  · exact (sublist_places (fun _ _ => fst_of_message?) results).nodup h

variable {σ : Type} {m : Mode} {c : Collector σ α} {d : Disk} {files : List Path}

theorem ofFiles_spec (h : (files.map Path.place).Nodup) :
    (ofFiles m c d files).success.entries =
        files.filterMap (fun f => value? (f, c.ofFile d f)) ∧
      (ofFiles m c d files).errors.entries =
        files.filterMap (fun f => message? (f, c.ofFile d f)) := by
  unfold ofFiles mapFiles
  have hsame : ∀ f, (c.ofFile d f).map (fun a => a) = c.ofFile d f := fun f =>
    congrFun Except.map_id (c.ofFile d f)
  rw [Mode.run_eq_map]
  simp only [hsame]
  have hplaces : ((files.map fun f => (f, c.ofFile d f)).map fun r => r.1.place).Nodup := by
    rw [List.map_map]
    exact h
  have hspec := ofResults_spec hplaces
  rwa [List.filterMap_map, List.filterMap_map] at hspec

end Batch

namespace Dictionary

variable {κ : Type} [DecidableEq κ]

theorem get?_insertIfNew (d : Dictionary κ α) (key : κ) (value : α) (other : κ) :
    (d.insertIfNew key value).get? other =
      (d.get? other).or (if key = other then some value else none) := by
  unfold insertIfNew contains
  by_cases hother : key = other
  · subst hother
    cases h : d.get? key with
    | some v => simp [h]
    | none => simp
  · rw [if_neg hother, Option.or_none]
    split
    · rfl
    · exact get?_insert_of_ne _ (Ne.symm hother) _

/-- Among entries that are taken in only under new keys, the first of a key stays. -/
theorem get?_foldl_insertIfNew (es : List (κ × α)) (d : Dictionary κ α) (key : κ) :
    (es.foldl (fun d e => d.insertIfNew e.1 e.2) d).get? key = (d.get? key).or (find? key es) := by
  induction es generalizing d with
  | nil => simp [find?]
  | cons e es ih =>
      rw [List.foldl_cons, ih, get?_insertIfNew, Option.or_assoc, find?]
      by_cases h : e.1 = key <;> simp [h]

theorem keys_insertIfNew (d : Dictionary κ α) (key : κ) (value : α) :
    (d.insertIfNew key value).keys = addNew d.keys key := by
  unfold insertIfNew contains addNew
  by_cases h : key ∈ d.keys
  · rw [if_pos h, if_pos ((d.mem_keys_iff key).1 h)]
  · rw [if_neg h, if_neg (mt (d.mem_keys_iff key).2 h), keys_insert, if_neg h]

/-- Keys that are taken in only when they are new stand in order of first occurrence. -/
theorem keys_foldl_insertIfNew (es : List (κ × α)) (d : Dictionary κ α) :
    (es.foldl (fun d e => d.insertIfNew e.1 e.2) d).keys =
      (es.map Prod.fst).foldl addNew d.keys := by
  induction es generalizing d with
  | nil => rfl
  | cons e es ih => rw [List.foldl_cons, ih, keys_insertIfNew]; rfl

end Dictionary

end Resettle
