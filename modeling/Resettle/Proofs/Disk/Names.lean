import Mathlib.Data.List.Nodup
import Mathlib.Data.List.TakeDrop
import Mathlib.Data.List.TakeWhile
import Resettle.Disk
import Resettle.Proofs.Text.Pieces

/-!
# Names on a disk

A name of a file or directory is not empty, is no dots, and holds no separator.  A name occurs once
in a directory.
-/

namespace Resettle.Disk

/-- What a file or directory may be called. -/
def IsName (name : String) : Prop :=
  name ≠ "" ∧ isDots name = false ∧ '/' ∉ name.toList

instance (name : String) : Decidable (IsName name) :=
  inferInstanceAs (Decidable (_ ∧ _ ∧ _))

/-- Every place on a disk is reached by names. -/
def Named (d : Disk) : Prop :=
  ∀ place ∈ d.entries.keys, ∀ name ∈ place, IsName name

instance (d : Disk) : Decidable d.Named :=
  inferInstanceAs (Decidable (∀ place ∈ d.entries.keys, ∀ name ∈ place, IsName name))

variable {d : Disk}

/-- Only empty segments stand behind the last segment that is not empty. -/
theorem segments_of_splitLast {p : Path} {s : Split} (h : splitLast p = some s) :
    s.last ≠ "" ∧ ∃ empties : List String, (∀ name ∈ empties, name = "") ∧
      p.segments = s.front ++ s.last :: empties := by
  unfold splitLast at h
  rw [List.span_eq_takeWhile_dropWhile] at h
  split at h
  · next empties last front hspan =>
      obtain rfl := Option.some.inj h
      obtain ⟨hempties, hlast⟩ := Prod.mk.inj hspan
      have hcut := List.takeWhile_append_dropWhile (p := (· == "")) (l := p.segments.reverse)
      have hdark := List.head?_dropWhile_not (· == "") p.segments.reverse
      rw [hlast] at hdark
      refine ⟨by simpa using hdark, empties.reverse, fun name hname => ?_, ?_⟩
      · rw [List.mem_reverse, ← hempties] at hname
        simpa using List.mem_takeWhile_imp hname
      · rw [hempties, hlast] at hcut
        rw [← List.reverse_inj, ← hcut]
        simp
  · cases h

theorem parentOf_eq_ok {p : Path} {s : Split} {dir : Place} {name : String}
    (h : d.parentOf p s = .ok (dir, name)) :
    d.walk (d.start p) s.front = .ok dir ∧ d.isDirectoryAt dir = true ∧
      s.last.utf8ByteSize ≤ maxName ∧ name = s.last := by
  unfold parentOf at h
  cases hwalk : d.walk (d.start p) s.front with
  | error cause =>
      rw [hwalk] at h
      cases h
  | ok found =>
      rw [hwalk] at h
      simp only [bind, Except.bind] at h
      split at h
      · cases h
      · cases h
      · next hdir =>
          split at h
          · cases h
          · next hshort =>
              cases h
              refine ⟨rfl, ?_, Nat.le_of_not_lt hshort, rfl⟩
              rw [isDirectoryAt, hdir, beq_self_eq_true]

/-! ## The names in a directory -/

theorem nodup_namesAt (d : Disk) (place : Place) : (d.namesAt place).Nodup := by
  unfold namesAt
  rw [(List.mergeSort_perm _ _).nodup_iff]
  refine List.Nodup.filterMap ?_ d.entries.nodup
  intro key key' name hkey hkey'
  simp only [Option.mem_def] at hkey hkey'
  split at hkey
  · next hplace =>
      split at hkey'
      · next hplace' =>
          rw [← List.dropLast_append_getLast? name hkey, ← List.dropLast_append_getLast? name hkey',
            hplace, hplace']
      · cases hkey'
  · cases hkey

/-- Sorted names that lie in a directory are the names in the directory. -/
theorem names_of_pairwise {p : Path} {place : Place} {found : List String}
    (hplace : (d.placeOf p).toOption = some place)
    (hsorted : found.Pairwise fun a b => decide (a ≤ b) = true)
    (h : (d.entries.keys.filterMap fun key =>
      if key.dropLast = place then key.getLast? else none) = found) :
    d.names p = found := by
  unfold names
  cases hp : d.placeOf p with
  | error cause =>
      rw [hp] at hplace
      cases hplace
  | ok place' =>
      rw [hp] at hplace
      obtain rfl := Option.some.inj hplace
      show d.namesAt _ = found
      unfold namesAt
      rw [h, List.mergeSort_of_pairwise hsorted]

theorem Named.isName_of_mem (h : d.Named) {p : Path} {name : String} (hname : name ∈ d.names p) :
    IsName name := by
  unfold names at hname
  split at hname
  · unfold namesAt at hname
    rw [List.mem_mergeSort, List.mem_filterMap] at hname
    obtain ⟨key, hkey, hlast⟩ := hname
    split at hlast
    · exact h key hkey name (List.mem_of_getLast? hlast)
    · cases hlast
  · cases hname

theorem nodup_names (d : Disk) (p : Path) : (d.names p).Nodup := by
  unfold names
  split
  · exact d.nodup_namesAt _
  · exact List.nodup_nil

end Resettle.Disk
