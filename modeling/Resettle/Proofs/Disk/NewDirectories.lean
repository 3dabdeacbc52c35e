import Mathlib.Data.List.Infix
import Resettle.Proofs.Disk.Directories
import Resettle.Proofs.Path.Parents

/-!
# New directories

A path without `..` leads to its names, seen from where it starts.  A directory that is made along
such a path is the last one that is made on its way, so that nothing lies in it, and nothing else
changes than the places on the way.
-/

namespace Resettle

namespace Disk

variable {d d' d₁ : Disk} {p : Path} {place q : Place} {names : List String}

/-! ## Where plain paths lead -/

/-- The place that the names of a path lead to. -/
def wayTo (d : Disk) (p : Path) : Place :=
  d.start p ++ p.names

theorem Extends.wayTo (h : d.Extends d') (p : Path) : d'.wayTo p = d.wayTo p := by
  rw [Disk.wayTo, Disk.wayTo, start, start, h.here]

theorem walk_eq_of_notMem (hup : ".." ∉ names) (h : d.walk place names = .ok q) :
    q = place ++ names.filter fun s => s ≠ "" && s ≠ "." := by
  induction names generalizing place with
  | nil =>
      cases h
      exact (List.append_nil _).symm
  | cons name rest ih =>
      obtain ⟨hname, hrest⟩ := not_or.1 (mt List.mem_cons.2 hup)
      rw [walk] at h
      split at h
      · cases h
      · cases h
      · by_cases hstay : name = "" ∨ name = "."
        · rw [if_pos hstay] at h
          rw [List.filter_cons_of_neg (by rcases hstay with rfl | rfl <;> decide)]
          exact ih hrest h
        · rw [if_neg hstay, if_neg (Ne.symm hname)] at h
          rw [not_or] at hstay
          rw [List.filter_cons_of_pos (by simp [hstay])]
          split at h
          · cases h
          · simpa using ih hrest h

theorem notMem_segments (hup : ".." ∉ p.names) : ".." ∉ p.segments :=
  fun hmem => hup (Path.mem_names_iff.2 ⟨hmem, by decide, by decide⟩)

theorem placeOf_eq_wayTo (hup : ".." ∉ p.names) (h : d.placeOf p = .ok q) : q = d.wayTo p := by
  unfold placeOf at h
  split at h
  · cases h
  · exact walk_eq_of_notMem (notMem_segments hup) h

theorem isDirectoryAt_of_prefix {dir : Place} (hbegins : dir <+: place)
    (h : d.isDirectoryAt place = true) : d.isDirectoryAt dir = true := by
  obtain ⟨below, rfl⟩ := hbegins
  induction below using List.reverseRecOn with
  | nil => rwa [List.append_nil] at h
  | append_singleton below name ih =>
      rw [← List.append_assoc] at h
      exact ih (isDirectoryAt_of_entryAt? (entryAt?_of_isDirectoryAt h))

/-- A walk to a directory that was there before could be made before. -/
theorem walk_of_isDirectoryAt (hup : ".." ∉ names) (h : d'.walk place names = .ok q)
    (hdir : d.isDirectoryAt q = true) : d.walk place names = .ok q := by
  induction names generalizing place with
  | nil => exact h
  | cons name rest ih =>
      obtain ⟨hname, hrest⟩ := not_or.1 (mt List.mem_cons.2 hup)
      have hplace : d.isDirectoryAt place = true :=
        isDirectoryAt_of_prefix ⟨_, (walk_eq_of_notMem hup h).symm⟩ hdir
      rw [walk] at h ⊢
      rw [entryAt?_of_isDirectoryAt hplace]
      split at h
      · cases h
      · cases h
      · by_cases hstay : name = "" ∨ name = "."
        · simp only [if_pos hstay] at h ⊢
          exact ih hrest h
        · simp only [if_neg hstay, if_neg (Ne.symm hname)] at h ⊢
          split at h
          · cases h
          · next hshort =>
              rw [if_neg hshort]
              exact ih hrest h

theorem placeOf_of_isDirectoryAt (hhere : d'.here = d.here) (hup : ".." ∉ p.names)
    (h : d'.placeOf p = .ok q) (hdir : d.isDirectoryAt q = true) : d.placeOf p = .ok q := by
  unfold placeOf start at h ⊢
  rw [hhere] at h
  split at h
  · cases h
  · next htext =>
      rw [if_neg htext]
      exact walk_of_isDirectoryAt (notMem_segments hup) h hdir

/-! ## A new directory -/

/-- A directory that is made lies where its names lead, where nothing lay before. -/
theorem exists_add_of_makeDirectory (hup : ".." ∉ p.names) (h : d.makeDirectory p = .ok d₁) :
    ∃ dir name, d.wayTo p = dir ++ [name] ∧ d.entryAt? (dir ++ [name]) = none ∧
      d₁ = d.add dir name .directory := by
  obtain ⟨s, dir, hmakes, rfl⟩ := exists_makes h
  obtain ⟨hne, empties, hempties, hsegments⟩ := segments_of_splitLast hmakes.split
  have hfront : ".." ∉ s.front := fun hmem =>
    notMem_segments hup (hsegments ▸ List.mem_append_left _ hmem)
  have hdot : s.last ≠ "." := by
    have := hmakes.named
    rw [isDots, Bool.or_eq_false_iff, decide_eq_false_iff_not] at this
    exact this.1
  have hnone : empties.filter (fun s => s ≠ "" && s ≠ ".") = [] :=
    List.filter_eq_nil_iff.2 fun name hname => by simp [hempties name hname]
  refine ⟨dir, s.last, ?_, hmakes.free, rfl⟩
  rw [wayTo, Path.names, hsegments, List.filter_append,
    List.filter_cons_of_pos (by simp [hne, hdot]), hnone, ← List.append_assoc,
    ← walk_eq_of_notMem hfront hmakes.walk]

theorem entryAt?_makeDirectory_of_ne (hup : ".." ∉ p.names) (h : d.makeDirectory p = .ok d₁)
    (hne : place ≠ d.wayTo p) : d₁.entryAt? place = d.entryAt? place := by
  obtain ⟨dir, name, hway, -, rfl⟩ := exists_add_of_makeDirectory hup h
  exact entryAt?_add_of_ne d .directory (hway ▸ hne)

theorem namesAt_eq_nil (h : ∀ name, d.entryAt? (place ++ [name]) = none) :
    d.namesAt place = [] := by
  rw [namesAt, List.filterMap_eq_nil_iff.2, List.mergeSort_nil]
  intro key hkey
  obtain ⟨e, he, rfl⟩ := List.mem_map.1 hkey
  obtain ⟨dir, name, hdir, -⟩ := d.rooted e he
  split
  · next hplace =>
      rw [hdir, List.dropLast_concat] at hplace
      subst hplace
      have hnone := h name
      rw [← hdir, entryAt?, if_neg (by simp [hdir]), (d.entries.get?_eq_some_iff).2 he] at hnone
      cases hnone
  · rfl

theorem names_makeDirectory (hup : ".." ∉ p.names) (h : d.makeDirectory p = .ok d₁) :
    d₁.names p = [] := by
  obtain ⟨place, hplace, -⟩ := look_eq_ok_iff.1 (look_makeDirectory h)
  have hway : place = d.wayTo p :=
    (placeOf_eq_wayTo hup hplace).trans ((extends_makeDirectory h).wayTo p)
  obtain ⟨dir, name, hdir, hfree, -⟩ := exists_add_of_makeDirectory hup h
  rw [names, hplace]
  refine namesAt_eq_nil fun below => ?_
  rw [entryAt?_makeDirectory_of_ne hup h (by simp [hway]), hway, hdir]
  -- an entry below would have lain in a directory
  by_contra hbelow
  obtain ⟨e, he⟩ := Option.ne_none_iff_exists'.1 hbelow
  have hthere := isDirectoryAt_of_entryAt? he
  rw [isDirectoryAt, hfree] at hthere
  cases hthere

/-! ## A new directory with those above it -/

theorem entryAt?_makeAll_of_ne {ps : List Path}
    (h : ∀ p ∈ ps, ".." ∉ p.names ∧ place ≠ d.wayTo p) :
    (makeAll ps d).2.entryAt? place = d.entryAt? place := by
  induction ps with
  | nil => rfl
  | cons p parents ih =>
      obtain ⟨⟨hup, hne⟩, hparents⟩ := List.forall_mem_cons.1 h
      have habove := ih hparents
      have hextends := extends_makeAll parents d
      unfold makeAll
      split
      · rfl
      · split
        · next hmake => exact entryAt?_makeDirectory_of_ne hup hmake hne
        · split
          · next hall =>
              rw [hall] at habove
              exact habove
          · next hall =>
              rw [hall] at habove hextends
              split
              · next hmake =>
                  rw [← hextends.wayTo p] at hne
                  exact (entryAt?_makeDirectory_of_ne hup hmake hne).trans habove
              · exact habove
        · rfl

/-- The paths above a plain path lead to the places above its own. -/
theorem wayTo_of_mem_ancestors {depth : Nat} {above : Path} (hup : ".." ∉ p.names)
    (h : above ∈ p.ancestors depth) :
    ".." ∉ above.names ∧ d.wayTo above <+: d.wayTo p := by
  obtain ⟨hbegins, habsolute⟩ := Path.names_of_mem_ancestors h
  refine ⟨fun hmem => hup (hbegins.subset hmem), ?_⟩
  rw [wayTo, wayTo, start, start, habsolute]
  exact (List.prefix_append_right_inj _).2 hbegins

/-- Only the places on the way of a plain path change when it is made. -/
theorem entryAt?_makePath_of_not_prefix (hup : ".." ∉ p.names) (h : ¬place <+: d.wayTo p) :
    (d.makePath p).2.entryAt? place = d.entryAt? place := by
  refine entryAt?_makeAll_of_ne fun above habove => ?_
  obtain ⟨habove, hbegins⟩ : ".." ∉ above.names ∧ d.wayTo above <+: d.wayTo p :=
    wayTo_of_mem_ancestors hup habove
  exact ⟨habove, fun heq => h (heq ▸ hbegins)⟩

/-- A path that has names does not lead where a path above it leads. -/
theorem wayTo_ne_of_mem_ancestors {parent above : Path} {depth : Nat} (hnames : p.names ≠ [])
    (hparent : p.parent? = some parent) (h : above ∈ parent.ancestors depth) :
    d.wayTo p ≠ d.wayTo above := by
  intro heq
  obtain ⟨hbegins, habsolute⟩ := Path.names_of_mem_ancestors h
  obtain ⟨hparentNames, hparentStart⟩ := Path.names_parent hparent
  rw [wayTo, wayTo, start, start, habsolute, hparentStart, List.append_cancel_left_eq] at heq
  have hshorter := hbegins.length_le
  rw [hparentNames, ← heq, List.length_dropLast] at hshorter
  have hpositive := List.length_pos_iff.2 hnames
  omega

/-- Making the paths above a plain path does not make the path: a directory that it names then was
there before. -/
theorem has_of_isDirectory_above {parent : Path} {depth : Nat} (hnames : p.names ≠ [])
    (hup : ".." ∉ p.names) (hparent : p.parent? = some parent)
    (h : (makeAll (parent.ancestors depth) d).2.isDirectory p = true) : d.has p = true := by
  have hextends := extends_makeAll (parent.ancestors depth) d
  obtain ⟨place, hplace, he⟩ := look_eq_ok_iff.1 (isDirectory_iff.1 h)
  obtain rfl : place = d.wayTo p := (placeOf_eq_wayTo hup hplace).trans (hextends.wayTo p)
  have hsame : (makeAll (parent.ancestors depth) d).2.entryAt? (d.wayTo p) =
      d.entryAt? (d.wayTo p) := by
    refine entryAt?_makeAll_of_ne fun above habove => ⟨fun hmem => ?_, ?_⟩
    · have hmem := (Path.names_of_mem_ancestors habove).1.subset hmem
      rw [(Path.names_parent hparent).1] at hmem
      exact hup (List.mem_of_mem_dropLast hmem)
    · exact wayTo_ne_of_mem_ancestors hnames hparent habove
  rw [hsame] at he
  have hdir : d.isDirectoryAt (d.wayTo p) = true := by rw [isDirectoryAt, he, beq_self_eq_true]
  exact has_of_look
    (look_eq_ok_iff.2 ⟨_, placeOf_of_isDirectoryAt hextends.here hup hplace hdir, he⟩)

/-- The last directory that is made on the way of a free plain path is its own. -/
theorem exists_makeDirectory_of_makePath (hnames : p.names ≠ []) (hup : ".." ∉ p.names)
    (hfree : d.has p = false) (h : d.makePath p = (.ok (), d₁)) :
    ∃ above : Disk, above.makeDirectory p = .ok d₁ := by
  obtain ⟨-, parent, -, -, hparent⟩ := Path.exists_fileName hnames hup
  have hnew : ¬ (makeAll (parent.ancestors p.text.length) d).2.isDirectory p = true := by
    intro hdir
    rw [has_of_isDirectory_above hnames hup hparent hdir] at hfree
    cases hfree
  unfold makePath Path.ancestors makeAll at h
  rw [hparent] at h
  split at h
  · next hempty => exact absurd hempty (Path.text_ne_empty hnames)
  · split at h
    · next hmake =>
        cases h
        exact ⟨d, hmake⟩
    · split at h
      · cases h
      · next above hall =>
          rw [hall] at hnew
          split at h
          · next hmake =>
              cases h
              exact ⟨above, hmake⟩
          · rw [if_neg hnew] at h
            cases h
    · rw [if_neg fun hdir => Bool.false_ne_true
        (hfree.symm.trans (has_of_look (isDirectory_iff.1 hdir)))] at h
      cases h

theorem names_makePath (hnames : p.names ≠ []) (hup : ".." ∉ p.names) (hfree : d.has p = false)
    (h : d.makePath p = (.ok (), d₁)) : d₁.names p = [] := by
  obtain ⟨above, hmake⟩ := exists_makeDirectory_of_makePath hnames hup hfree h
  exact names_makeDirectory hup hmake

end Disk

end Resettle
