import Mathlib.Data.List.Perm.Subperm
import Resettle.Proofs.Disk.Directories

/-!
# Free paths

A new directory gets the requested path, or the one with the first number that is free.  Paths with
different numbers have different names, and the names that are taken are names of entries, so that
a search with one try more than there are entries passes over no free path: it finds nothing only if
the paths with all the numbers are taken.
-/

namespace Resettle

namespace Path

/-! ## Numbered names -/

theorem toList_numberedName (p : Path) (n : Int32) :
    (p.numberedName n).toList = (p.fileName?.getD "").toList ++ '_' :: (toString n).toList := by
  rw [numberedName, String.toList_append, String.toList_append, List.append_assoc]
  rfl

theorem notMem_repr {c : Char} (hc : c.isDigit = false) (k : Nat) : c ∉ k.repr.toList := by
  intro hmem
  rw [Nat.toList_repr] at hmem
  have hdigit := Nat.isDigit_of_mem_toDigits (by decide) (by decide) hmem
  exact nomatch hc.symm.trans hdigit

theorem sep_notMem_number (n : Int32) : '/' ∉ (toString n).toList := by
  change '/' ∉ n.toInt.repr.toList
  rw [Int.repr_eq_if]
  split
  · exact notMem_repr (by decide) _
  · rw [String.toList_append, List.mem_append, not_or]
    exact ⟨by decide, notMem_repr (by decide) _⟩

theorem natRepr_injective : Function.Injective Nat.repr := by
  intro j k h
  have hread := congrArg (fun s => Nat.ofDigitChars 10 s.toList 0) h
  simpa using hread

theorem intRepr_injective : Function.Injective Int.repr := by
  have hsign : ∀ j k : Nat, j.repr ≠ "-" ++ k.repr := by
    intro j k h
    refine notMem_repr (c := '-') (by decide) j ?_
    rw [h, String.toList_append]
    exact List.mem_cons_self
  intro m n h
  rw [Int.repr_eq_if, Int.repr_eq_if] at h
  split at h <;> split at h
  · have := natRepr_injective h
    omega
  · exact (hsign _ _ h).elim
  · exact (hsign _ _ h.symm).elim
  · have := natRepr_injective ((String.append_right_inj _).1 h)
    omega

theorem numberedName_injective (p : Path) : Function.Injective p.numberedName := by
  intro m n h
  rw [numberedName, numberedName, String.append_right_inj] at h
  exact Int32.toInt_inj.1 (intRepr_injective h)

theorem isName_of_mem {name : String} (hmem : '_' ∈ name.toList) (hsep : '/' ∉ name.toList) :
    Disk.IsName name := by
  have hne : ∀ {other : String}, '_' ∉ other.toList → name ≠ other := by
    rintro other hother rfl
    exact hother hmem
  refine ⟨hne (by decide), ?_, hsep⟩
  rw [Disk.isDots, Bool.or_eq_false_iff, decide_eq_false_iff_not, decide_eq_false_iff_not]
  exact ⟨hne (by decide), hne (by decide)⟩

theorem isName_numberedName (p : Path) (n : Int32) : Disk.IsName (p.numberedName n) := by
  refine isName_of_mem ?_ ?_
  · rw [toList_numberedName]
    exact List.mem_append_right _ List.mem_cons_self
  · rw [toList_numberedName, List.mem_append, List.mem_cons, not_or, not_or]
    exact ⟨p.sep_notMem_fileName, by decide, sep_notMem_number n⟩

/-- The path with the number that is tried after `k` others. -/
def attempt (p : Path) (k : Nat) : Path :=
  p.numbered (Int32.ofNat (k + 1))

/-- Numbers differ until all of them have been tried. -/
theorem ofNat_succ_inj {j k : Nat} (hj : j < 4294967296) (hk : k < 4294967296)
    (h : Int32.ofNat (j + 1) = Int32.ofNat (k + 1)) : j = k := by
  have hbits := congrArg (fun n : Int32 => n.toBitVec.toNat) h
  simp only [Int32.ofNat, Int32.toBitVec, BitVec.toNat_ofNat] at hbits
  omega

theorem exists_eq_ofNat_succ (n : Int32) : ∃ k < 4294967296, n = Int32.ofNat (k + 1) := by
  refine ⟨(n - 1).toBitVec.toNat, (n - 1).toBitVec.isLt, ?_⟩
  rw [Int32.ofNat_add, Int32.ofNat_bitVecToNat]
  exact (Int32.sub_add_cancel n 1).symm

end Path

namespace Disk

variable {d : Disk} {requested p : Path}

/-! ## Taken names -/

/-- A walk that ends with a name ends below the directory that it comes through. -/
theorem eq_of_walk_name {mid place : Place} {name : String} (hname : IsName name)
    (h : d.walk mid [name] = .ok place) : place = mid ++ [name] := by
  have hdots : name ≠ "." ∧ name ≠ ".." := by simpa [isDots] using hname.2.1
  rw [walk] at h
  split at h
  · cases h
  · cases h
  · rw [if_neg (not_or.2 ⟨hname.1, hdots.1⟩), if_neg hdots.2] at h
    split at h
    · cases h
    · cases h
      rfl

/-- A path that names something and ends in a name leads to an entry of that name. -/
theorem exists_key_of_has {front : List String} {name : String}
    (hsegments : p.segments = front ++ [name]) (hname : IsName name) (h : d.has p = true) :
    ∃ key ∈ d.entries.keys, key.getLast? = some name := by
  cases hlook : d.look p with
  | error cause =>
      rw [has, hlook] at h
      cases h
  | ok e =>
      obtain ⟨place, hplace, he⟩ := look_eq_ok_iff.1 hlook
      rw [placeOf, hsegments, walk_append] at hplace
      split at hplace
      · cases hplace
      · cases hfront : d.walk (d.start p) front with
        | error cause =>
            rw [hfront] at hplace
            cases hplace
        | ok mid =>
            rw [hfront] at hplace
            obtain rfl := eq_of_walk_name hname hplace
            rw [entryAt?, if_neg (by simp), Dictionary.get?_eq_some_iff] at he
            exact ⟨_, List.mem_map_of_mem he, List.getLast?_concat⟩

/-- There are no more names that are taken than entries. -/
theorem length_le_size_of_taken {names : List String} (hnodup : names.Nodup)
    (h : ∀ name ∈ names, IsName name ∧ d.has (requested.withFileName name) = true) :
    names.length ≤ d.entries.size := by
  have hsub : names ⊆ d.entries.keys.filterMap List.getLast? := by
    intro name hmem
    obtain ⟨hname, htaken⟩ := h name hmem
    obtain ⟨front, hsegments⟩ := requested.segments_withFileName hname.2.2
    obtain ⟨key, hkey, hlast⟩ := exists_key_of_has hsegments hname htaken
    exact List.mem_filterMap.2 ⟨key, hkey, hlast⟩
  calc names.length
    _ ≤ (d.entries.keys.filterMap List.getLast?).length := (hnodup.subperm hsub).length_le
    _ ≤ d.entries.keys.length := d.entries.keys.length_filterMap_le List.getLast?
    _ = d.entries.size := List.length_map _

theorem length_le_size_of_attempts {k : Nat} (hk : k ≤ 4294967296)
    (h : ∀ j < k, d.has (requested.attempt j) = true) : k ≤ d.entries.size := by
  have hnodup : ((List.range k).map fun j => requested.numberedName (Int32.ofNat (j + 1))).Nodup :=
    List.nodup_range.map_on fun i hi j hj heq =>
      Path.ofNat_succ_inj ((List.mem_range.1 hi).trans_le hk) ((List.mem_range.1 hj).trans_le hk)
        (requested.numberedName_injective heq)
  have hle := length_le_size_of_taken hnodup fun name hname => by
    obtain ⟨j, hj, rfl⟩ := List.mem_map.1 hname
    exact ⟨requested.isName_numberedName _, h j (List.mem_range.1 hj)⟩
  rwa [List.length_map, List.length_range] at hle

/-! ## The path of a new directory -/

/-- There is no path for a new directory if and only if the requested path and the paths with all
numbers are taken. -/
theorem freshPath?_eq_none_iff :
    d.freshPath? requested = none ↔
      d.has requested = true ∧ ∀ n, d.has (requested.numbered n) = true := by
  constructor
  · intro h
    have htaken : ∀ p ∈ d.candidates requested, d.has p = true := by
      simpa [freshPath?, List.find?_eq_none] using h
    obtain ⟨hrequested, hattempts⟩ := List.forall_mem_cons.1 htaken
    have hattempts : ∀ k < d.entries.size + 1, d.has (requested.attempt k) = true := fun k hk =>
      hattempts _ (List.mem_map_of_mem (List.mem_range.2 hk))
    -- with fewer entries than numbers, more paths would be taken than there are entries
    have hmany : 4294967296 ≤ d.entries.size := by
      by_contra hfew
      have := d.length_le_size_of_attempts (by omega) hattempts
      omega
    refine ⟨hrequested, fun n => ?_⟩
    obtain ⟨k, hk, rfl⟩ := Path.exists_eq_ofNat_succ n
    exact hattempts k (by omega)
  · rintro ⟨hrequested, hnumbered⟩
    refine List.find?_eq_none.2 (List.forall_mem_cons.2 ⟨by simp [hrequested], fun p hp => ?_⟩)
    obtain ⟨k, -, rfl⟩ := List.mem_map.1 hp
    simp [hnumbered]

/-- The path of a new directory is free, and all that were tried before it are taken. -/
theorem of_freshPath?_eq_some (h : d.freshPath? requested = some p) :
    d.has p = false ∧ (p = requested ∨ d.has requested = true ∧
      ∃ k, p = requested.attempt k ∧ ∀ j < k, d.has (requested.attempt j) = true) := by
  have hfree : d.has p = false := by simpa using List.find?_some h
  refine ⟨hfree, ?_⟩
  cases hrequested : d.has requested with
  | false =>
      rw [freshPath?, candidates, List.find?_cons_of_pos (by simp [hrequested])] at h
      exact .inl (Option.some.inj h).symm
  | true =>
      rw [freshPath?, candidates, List.find?_cons_of_neg (by simp [hrequested]), List.find?_map,
        Option.map_eq_some_iff] at h
      obtain ⟨k, hfind, rfl⟩ := h
      have hbefore := (List.find?_range_eq_some.1 hfind).2.2
      exact .inr ⟨rfl, k, rfl, fun j hj => (Bool.not_not _).symm.trans (hbefore j hj)⟩

theorem freshPath?_eq_some_iff :
    d.freshPath? requested = some p ↔
      d.has p = false ∧ (p = requested ∨ d.has requested = true ∧
        ∃ k, p = requested.attempt k ∧ ∀ j < k, d.has (requested.attempt j) = true) := by
  refine ⟨of_freshPath?_eq_some, fun ⟨hfree, hp⟩ => ?_⟩
  cases hfresh : d.freshPath? requested with
  | none =>
      obtain ⟨hrequested, hnumbered⟩ := freshPath?_eq_none_iff.1 hfresh
      obtain rfl | ⟨-, k, rfl, -⟩ := hp
      · exact nomatch hfree.symm.trans hrequested
      · exact nomatch hfree.symm.trans (hnumbered _)
  | some q =>
      obtain ⟨hfree', hq⟩ := of_freshPath?_eq_some hfresh
      -- the first path that is free is one path
      obtain rfl | ⟨htaken, k, rfl, hbefore⟩ := hp <;>
        obtain rfl | ⟨htaken', k', rfl, hbefore'⟩ := hq
      · rfl
      · exact nomatch hfree.symm.trans htaken'
      · exact nomatch hfree'.symm.trans htaken
      · obtain hlt | rfl | hlt := Nat.lt_trichotomy k k'
        · exact nomatch hfree.symm.trans (hbefore' k hlt)
        · rfl
        · exact nomatch hfree'.symm.trans (hbefore k' hlt)

theorem freshPath?_empty (d : Disk) : d.freshPath? ⟨""⟩ = some ⟨""⟩ :=
  rfl

theorem text_ne_empty_of_freshPath? (hne : requested.text ≠ "")
    (h : d.freshPath? requested = some p) : p.text ≠ "" := by
  obtain ⟨-, rfl | ⟨-, k, rfl, -⟩⟩ := of_freshPath?_eq_some h
  · exact hne
  · have hname := requested.isName_numberedName (Int32.ofNat (k + 1))
    obtain ⟨front, hsegments⟩ := requested.segments_withFileName hname.2.2
    intro hempty
    have hsingle : (requested.attempt k).segments = [""] := by
      rw [Path.segments, hempty]
      rfl
    have hlast := congrArg List.getLast? (hsingle.symm.trans hsegments)
    rw [List.getLast?_concat] at hlast
    exact hname.1 (Option.some.inj hlast).symm

end Disk

/-! ## The action -/

namespace Action

variable {requested output : Path} {d d₁ : Disk}

theorem finish_freshDirectory (requested : Path) (d : Disk) :
    (freshDirectory requested).finish d =
      match d.freshPath? requested with
      | none => (.error (.write requested .alreadyExists), d)
      | some p =>
          match d.makePath p with
          | (.ok (), d₁) => (.ok p, d₁)
          | (.error cause, d₁) => (.error (.write p cause), d₁) := by
  unfold freshDirectory
  rw [finish_bind, finish_get]
  dsimp only
  cases hfresh : d.freshPath? requested with
  | none => rfl
  | some p =>
      dsimp only
      rw [finish_bind, finish_ensureDirectory_of_free (Disk.of_freshPath?_eq_some hfresh).1]
      cases d.makePath p with
      | mk result d₁ => cases result <;> rfl

/-- The disk has changed as by making the path of the new directory, if there is one. -/
theorem finish_freshDirectory_snd (requested : Path) (d : Disk) :
    ((freshDirectory requested).finish d).2 =
      match d.freshPath? requested with
      | none => d
      | some p => (d.makePath p).2 := by
  rw [finish_freshDirectory]
  split
  · rfl
  · split <;> simp only [*]

theorem finish_freshDirectory_eq_ok_iff :
    (freshDirectory requested).finish d = (.ok output, d₁) ↔
      d.freshPath? requested = some output ∧ d.makePath output = (.ok (), d₁) := by
  rw [finish_freshDirectory]
  constructor
  · intro h
    split at h
    · cases h
    · next hfresh =>
        split at h
        · next hmake =>
            cases h
            exact ⟨hfresh, hmake⟩
        · cases h
  · rintro ⟨hfresh, hmake⟩
    rw [hfresh]
    dsimp only
    rw [hmake]

theorem extends_freshDirectory (requested : Path) (d : Disk) :
    d.Extends ((freshDirectory requested).finish d).2 := by
  rw [finish_freshDirectory_snd]
  split
  · exact .refl d
  · exact d.extends_makePath _

/-- A directory that was made anew was not there before, and nothing else has changed. -/
theorem fresh_of_freshDirectory (h : (freshDirectory requested).finish d = (.ok output, d₁)) :
    d.has output = false ∧ d.Extends d₁ ∧
      (requested.text ≠ "" → d₁.look output = .ok .directory) := by
  obtain ⟨hfresh, hmake⟩ := finish_freshDirectory_eq_ok_iff.1 h
  have hextends := extends_freshDirectory requested d
  rw [h] at hextends
  exact ⟨(Disk.of_freshPath?_eq_some hfresh).1, hextends, fun hne =>
    Disk.look_makePath (Disk.text_ne_empty_of_freshPath? hne hfresh) hmake⟩

theorem finish_freshDirectory_empty (d : Disk) :
    (freshDirectory ⟨""⟩).finish d = (.ok ⟨""⟩, d) := by
  rw [finish_freshDirectory, Disk.freshPath?_empty]
  dsimp only
  rw [Disk.makePath_empty]

end Action

end Resettle
