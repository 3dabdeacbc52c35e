import Resettle.Proofs.Disk.Names
import Resettle.Proofs.Disk.Writing
import Resettle.Proofs.Path.Segments

/-!
# Making directories

A directory that is made is there afterwards, and everything that was there stays as it was.
-/

namespace Resettle

namespace Disk

/-! ## Disks that grow -/

/-- Everything on the disk is there on the other disk too. -/
structure Extends (d d' : Disk) : Prop where
  here : d'.here = d.here
  entries : ∀ place e, d.entryAt? place = some e → d'.entryAt? place = some e

namespace Extends

variable {d d' d'' : Disk} {p : Path}

protected theorem refl (d : Disk) : d.Extends d :=
  ⟨rfl, fun _ _ h => h⟩

protected theorem trans (h : d.Extends d') (h' : d'.Extends d'') : d.Extends d'' :=
  ⟨h'.here.trans h.here, fun place e he => h'.entries place e (h.entries place e he)⟩

theorem isDirectoryAt (h : d.Extends d') {place : Place} (hdir : d.isDirectoryAt place = true) :
    d'.isDirectoryAt place = true := by
  rw [Disk.isDirectoryAt, beq_iff_eq]
  exact h.entries place _ (entryAt?_of_isDirectoryAt hdir)

theorem walk (h : d.Extends d') {names : List String} {place q : Place}
    (hwalk : d.walk place names = .ok q) : d'.walk place names = .ok q := by
  induction names generalizing place with
  | nil => exact hwalk
  | cons name rest ih =>
      rw [Disk.walk] at hwalk ⊢
      cases he : d.entryAt? place with
      | none =>
          rw [he] at hwalk
          cases hwalk
      | some e =>
          rw [h.entries place e he]
          rw [he] at hwalk
          cases e with
          | file content executable => cases hwalk
          | directory =>
              dsimp only at hwalk ⊢
              by_cases hstay : name = "" ∨ name = "."
              · rw [if_pos hstay] at hwalk ⊢
                exact ih hwalk
              · rw [if_neg hstay] at hwalk ⊢
                by_cases hup : name = ".."
                · rw [if_pos hup] at hwalk ⊢
                  exact ih hwalk
                · rw [if_neg hup] at hwalk ⊢
                  by_cases hlong : maxName < name.utf8ByteSize
                  · rw [if_pos hlong] at hwalk
                    cases hwalk
                  · rw [if_neg hlong] at hwalk ⊢
                    exact ih hwalk

theorem placeOf (h : d.Extends d') {place : Place} (hplace : d.placeOf p = .ok place) :
    d'.placeOf p = .ok place := by
  unfold Disk.placeOf start at hplace ⊢
  rw [h.here]
  by_cases hempty : p.text = ""
  · rw [if_pos hempty] at hplace
    cases hplace
  · rw [if_neg hempty] at hplace ⊢
    exact h.walk hplace

theorem look (h : d.Extends d') {e : Entry} (hlook : d.look p = .ok e) : d'.look p = .ok e := by
  obtain ⟨place, hplace, he⟩ := look_eq_ok_iff.1 hlook
  exact look_eq_ok_iff.2 ⟨place, h.placeOf hplace, h.entries place e he⟩

end Extends

variable {d d₁ : Disk} {p : Path}

theorem isDirectory_iff : d.isDirectory p = true ↔ d.look p = .ok .directory := by
  unfold isDirectory
  split
  · next h => exact ⟨fun _ => h, fun _ => rfl⟩
  · next h => exact ⟨fun hfalse => (nomatch hfalse), fun hlook => (h hlook).elim⟩

theorem has_of_look {e : Entry} (h : d.look p = .ok e) : d.has p = true := by
  rw [has, h]
  rfl

theorem extends_add {dir : Place} {name : String} (h : d.entryAt? (dir ++ [name]) = none)
    (e : Entry) : d.Extends (d.add dir name e) := by
  refine ⟨d.add_here dir name e, fun place old hold => ?_⟩
  have hne : place ≠ dir ++ [name] := by
    rintro rfl
    rw [h] at hold
    cases hold
  rw [entryAt?_add_of_ne d e hne, hold]

/-! ## A single directory -/

/-- What a path needs for a directory to be made there. -/
structure Makes (d : Disk) (p : Path) (s : Split) (dir : Place) : Prop where
  nonempty : p.text ≠ ""
  split : splitLast p = some s
  walk : d.walk (d.start p) s.front = .ok dir
  above : d.isDirectoryAt dir = true
  short : s.last.utf8ByteSize ≤ maxName
  named : isDots s.last = false
  free : d.entryAt? (dir ++ [s.last]) = none

theorem exists_makes (h : d.makeDirectory p = .ok d₁) :
    ∃ s dir, d.Makes p s dir ∧ d₁ = d.add dir s.last .directory := by
  unfold makeDirectory at h
  split at h
  · cases h
  · next hnonempty =>
      split at h
      · cases h
      · next s hsplit =>
          cases hparent : d.parentOf p s with
          | error cause =>
              rw [hparent] at h
              cases h
          | ok found =>
              obtain ⟨dir, name⟩ := found
              obtain ⟨hwalk, habove, hshort, rfl⟩ := parentOf_eq_ok hparent
              rw [hparent] at h
              simp only [bind, Except.bind] at h
              split at h
              · cases h
              · next hfree =>
                  cases h
                  rw [Bool.not_eq_true, Bool.or_eq_false_iff, Option.isSome_eq_false_iff,
                    Option.isNone_iff_eq_none] at hfree
                  exact ⟨s, dir, ⟨hnonempty, hsplit, hwalk, habove, hshort, hfree.1, hfree.2⟩, rfl⟩

theorem Makes.makeDirectory {s : Split} {dir : Place} (h : d.Makes p s dir) :
    d.makeDirectory p = .ok (d.add dir s.last .directory) := by
  have hparent : d.parentOf p s = .ok (dir, s.last) := by
    rw [parentOf, h.walk]
    simp only [bind, Except.bind, entryAt?_of_isDirectoryAt h.above]
    rw [if_neg (Nat.not_lt.2 h.short)]
  rw [Disk.makeDirectory, if_neg h.nonempty, h.split]
  simp only [hparent, bind, Except.bind, h.named, h.free, Option.isSome_none, Bool.or_self,
    Bool.false_eq_true, if_false]

theorem extends_makeDirectory (h : d.makeDirectory p = .ok d₁) : d.Extends d₁ := by
  obtain ⟨s, dir, hmakes, rfl⟩ := exists_makes h
  exact extends_add hmakes.free _

theorem walk_empties {place : Place} (hplace : d.isDirectoryAt place = true) {names : List String}
    (h : ∀ name ∈ names, name = "") : d.walk place names = .ok place := by
  induction names with
  | nil => rfl
  | cons name names ih =>
      rw [List.forall_mem_cons] at h
      rw [walk, entryAt?_of_isDirectoryAt hplace]
      dsimp only
      rw [if_pos (.inl h.1), ih h.2]

theorem walk_name {place : Place} (hplace : d.isDirectoryAt place = true) {name : String}
    (hne : name ≠ "") (hdots : isDots name = false) (hshort : name.utf8ByteSize ≤ maxName)
    (rest : List String) : d.walk place (name :: rest) = d.walk (place ++ [name]) rest := by
  simp only [isDots, Bool.or_eq_false_iff, decide_eq_false_iff_not] at hdots
  rw [walk, entryAt?_of_isDirectoryAt hplace]
  dsimp only
  rw [if_neg (by tauto), if_neg hdots.2, if_neg (Nat.not_lt.2 hshort)]

theorem look_makeDirectory (h : d.makeDirectory p = .ok d₁) : d₁.look p = .ok .directory := by
  obtain ⟨s, dir, hmakes, rfl⟩ := exists_makes h
  obtain ⟨hne, empties, hempties, hsegments⟩ := segments_of_splitLast hmakes.split
  have hextends := extends_add hmakes.free .directory
  have hnew : d.isDirectoryAt (dir ++ [s.last]) = false := by
    rw [isDirectoryAt, hmakes.free]
    rfl
  have hadded := entryAt?_add_self .directory hmakes.above hnew
  refine look_eq_ok_iff.2 ⟨dir ++ [s.last], ?_, hadded⟩
  have hstart : (d.add dir s.last .directory).start p = d.start p := by
    rw [start, start, hextends.here]
  rw [placeOf, if_neg hmakes.nonempty, hstart, hsegments, walk_append, hextends.walk hmakes.walk]
  calc (d.add dir s.last .directory).walk dir (s.last :: empties)
      = (d.add dir s.last .directory).walk (dir ++ [s.last]) empties :=
        walk_name (hextends.isDirectoryAt hmakes.above) hne hmakes.named hmakes.short empties
    _ = .ok (dir ++ [s.last]) :=
        walk_empties (by rw [isDirectoryAt, hadded, beq_self_eq_true]) hempties

/-! ## Directories with those above them -/

theorem extends_makeAll (ps : List Path) (d : Disk) : d.Extends (makeAll ps d).2 := by
  induction ps with
  | nil => exact .refl d
  | cons p parents ih =>
      unfold makeAll
      split
      · exact .refl d
      · split
        · next hmake => exact extends_makeDirectory hmake
        · split
          · next hall =>
              rw [hall] at ih
              exact ih
          · next hall =>
              rw [hall] at ih
              split
              · next hmake => exact ih.trans (extends_makeDirectory hmake)
              · exact ih
        · exact .refl d

theorem look_makeAll {parents : List Path} (hp : p.text ≠ "")
    (h : makeAll (p :: parents) d = (.ok (), d₁)) : d₁.look p = .ok .directory := by
  -- what is said of a path that names a directory already
  have hthere : ∀ {x : Disk} {cause : Failure},
      ((if x.isDirectory p then .ok () else .error cause : Except Failure Unit), x) = (.ok (), d₁) →
        d₁.look p = .ok .directory := by
    intro x cause hx
    split at hx
    · next hdir =>
        cases hx
        exact isDirectory_iff.1 hdir
    · cases hx
  unfold makeAll at h
  rw [if_neg hp] at h
  split at h
  · next hmake =>
      cases h
      exact look_makeDirectory hmake
  · split at h
    · cases h
    · split at h
      · next hmake =>
          cases h
          exact look_makeDirectory hmake
      · exact hthere h
  · exact hthere h

theorem extends_makePath (d : Disk) (p : Path) : d.Extends (d.makePath p).2 :=
  extends_makeAll _ d

theorem look_makePath (hp : p.text ≠ "") (h : d.makePath p = (.ok (), d₁)) :
    d₁.look p = .ok .directory :=
  look_makeAll hp h

theorem makePath_of_makeDirectory (hp : p.text ≠ "") (h : d.makeDirectory p = .ok d₁) :
    d.makePath p = (.ok (), d₁) := by
  rw [makePath, Path.ancestors, makeAll, if_neg hp, h]

theorem makePath_empty (d : Disk) : d.makePath ⟨""⟩ = (.ok (), d) :=
  rfl

end Disk

/-! ## The action -/

namespace Action

theorem finish_ensureDirectory_of_free {d : Disk} {p : Path} (h : d.has p = false) :
    (ensureDirectory p).finish d =
      match d.makePath p with
      | (.ok (), d₁) => (.ok (), d₁)
      | (.error cause, d₁) => (.error (.write p cause), d₁) := by
  unfold ensureDirectory
  rw [finish_bind, finish_get]
  simp only [h, Bool.not_false, if_true]
  rw [finish_bind, finish_get]
  cases hmake : d.makePath p with
  | mk result d₁ =>
      dsimp only
      rw [hmake]
      cases result <;> rfl

end Action

end Resettle
